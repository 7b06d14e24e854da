/-!
# Where an agent listens

A host is stored with or without a port. One without gets the default port, and
an IPv6 address is put in brackets.
-/

namespace ProxyFleet

/-- A text that ends in `]:` and digits. -/
def endsInBracketedPort (cs : List Char) : Bool :=
  let back := cs.reverse
  match back.takeWhile Char.isDigit, back.dropWhile Char.isDigit with
  | _ :: _, ':' :: ']' :: _ => true
  | _, _ => false

/-- The address of an agent: its host, with the default port if the host names none. -/
def agentAddress (host : String) (defaultPort : String) : String :=
  let cs := host.toList
  let colons := cs.count ':'
  if cs.head? = some '[' then
    if endsInBracketedPort cs then host else host ++ ":" ++ defaultPort
  else if 1 < colons then "[" ++ host ++ "]:" ++ defaultPort
  else if colons = 1 then host
  else host ++ ":" ++ defaultPort

end ProxyFleet
