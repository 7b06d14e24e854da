import ProxyFleet.Inbound
import ProxyFleet.Number.Decimal
import ProxyFleet.Text.Blank
import ProxyFleet.Text.Units

/-!
# Destinations

Xray writes the server that a Reality listener hands visitors to as one text,
`host:port`. The port is what stands behind the last colon; a host in brackets
loses them.
-/

namespace ProxyFleet

namespace Xray

/-- The port of a destination that names none. -/
def defaultPort : Number := 443

/-- A host without the brackets around it. -/
def dropBrackets (cs : List Char) : List Char :=
  match cs with
  | '[' :: rest =>
    if rest.getLast? = some ']' && !rest.dropLast.any endsLine then rest.dropLast else cs
  | _ => cs

/-- The host and the port of a destination. A destination of digits alone is a port. -/
def splitDestination (dest : String) : Handshake :=
  match splitLast? ':' dest.toList with
  | none =>
    if dest != "" && dest.toList.all Char.isDigit then
      ⟨"", Number.ofDecimal false (Decimal.ofDigits dest.toList) 0⟩
    else ⟨dest, defaultPort⟩
  | some (host, port) =>
    ⟨String.ofList (dropBrackets host),
      (Number.ofLeadingDigits? (port.dropWhile isBlank)).getD defaultPort⟩

end Xray

end ProxyFleet
