import ProxyFleet.Context
import ProxyFleet.Template.Subscriber

/-!
# Sections of configurations

What a template need not spell out: the statistics interfaces of both engines and
their default names, routes and outbounds.
-/

namespace ProxyFleet

namespace Template

namespace Section

/-- The listeners of an array. -/
def inboundsOf (v : Value) : List Value := (v.items?.getD []).filter Value.isInbound

/-- The tags of listeners that have one. -/
def tagsOf (v : Value) : List String :=
  ((inboundsOf v).map fun i => (i.get "tag").asText).filter (· != "")

/-- The statistics interface of sing-box. -/
def v2rayApi (listen : String) (inbounds users : Value) : Value :=
  .obj [("listen", .str (firstText listen Context.statsListen)),
    ("stats", .obj [("enabled", .bool true), ("inbounds", .texts (tagsOf inbounds)),
      ("users", .texts (Subscriber.statistics (Subscriber.listOf users))),
      ("outbounds", .texts ["direct"])])]

/-- The name service of sing-box. -/
def dns : Value :=
  .obj [("servers", .arr [.obj [("tag", .str "dns-direct"), ("address", .str "local"),
    ("detour", .str "direct")]])]

/-- The routes of sing-box. -/
def route (inbounds : Value) : Value :=
  .obj [("rules", .arr [.obj [("inbound", .texts (tagsOf inbounds)),
      ("outbound", .str "direct")]]),
    ("final", .str "direct")]

/-- The host and the port of a listening address; what it does not name has a default. -/
def hostAndPort (listen : String) : String × Number :=
  match splitLast? ':' listen.toList with
  | some (c :: host, port) =>
    let n := (Number.ofLeadingDigits? (port.dropWhile isBlank)).getD .nan
    (String.ofList (c :: host), if Number.lt 0 n then n else 10085)
  | _ => ("127.0.0.1", 10085)

/-- A record that switches everything on. -/
def switches (names : List String) : Value := .obj (names.map fun n => (n, .bool true))

/-- The statistics interface of Xray: its parts by name. -/
def xrayApi (listen : String) : Value :=
  let listen := firstText listen Context.statsListen
  let (host, port) := hostAndPort listen
  .obj [("stats", .obj []),
    ("api", .obj [("tag", .str "api"), ("listen", .str listen),
      ("services", .texts ["StatsService"])]),
    ("policy", .obj [
      ("levels", .obj [("0", switches ["statsUserUplink", "statsUserDownlink"])]),
      ("system", switches ["statsInboundUplink", "statsInboundDownlink", "statsOutboundUplink",
        "statsOutboundDownlink"])]),
    ("apiInbound", .obj [("tag", .str "api"), ("port", .num port), ("listen", .str host),
      ("protocol", .str "dokodemo-door"), ("settings", .obj [("address", .str host)])]),
    ("apiRoutingRule", .obj [("inboundTag", .texts ["api"]), ("outboundTag", .str "api")])]

/-- The outbounds of Xray. -/
def xrayOutbounds : Value :=
  .arr [.obj [("protocol", .str "freedom"), ("tag", .str "direct")],
    .obj [("protocol", .str "blackhole"), ("tag", .str "block")]]

/-- The routes of Xray. -/
def xrayRouting : Value :=
  .obj [("domainStrategy", .str "AsIs"), ("rules", .arr [.obj [("type", .str "field"),
    ("inboundTag", .texts ["api"]), ("outboundTag", .str "api")]])]

end Section

end Template

end ProxyFleet
