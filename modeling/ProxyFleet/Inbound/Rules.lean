import ProxyFleet.Inbound
import ProxyFleet.Value.Field

/-!
# Rules that both engines share

The flow and the method of clients that name none, and the place of the host
among the header fields of a transport.
-/

namespace ProxyFleet

/-- The flow a client of a Reality listener has if it names none. -/
def visionFlow : String := "xtls-rprx-vision"

/-- The method of a shadowsocks listener that names none. -/
def defaultMethod : String := "aes-256-gcm"

/-- The method of a shadowsocks listener: its own, else that of the first client with one. -/
def Inbound.shadowsocksMethod (i : Inbound) : String :=
  firstText (textOf i.options "method")
    (((i.users.find? (·.method != "")).map (·.method)).getD defaultMethod)

namespace Transport

/-- The host and the other header fields that a record gives: a `Host` header comes before the
`host` field, of which the first text counts. -/
def hostAndHeaders (fs : Fields) : String × List (String × String) :=
  let headers := (Fields.get fs "headers").textMap
  ((headers.lookup "Host").getD ((Fields.get fs "host").textList.head?.getD ""),
    headers.filter (·.1 != "Host"))

/-- The header fields of a web socket, the host among them. -/
def headerFields (t : Transport) : Fields :=
  let headers : Fields := t.headers.map fun h => (h.1, .str h.2)
  if t.host = "" then headers else Fields.put headers "Host" (.str t.host)

end Transport

end ProxyFleet
