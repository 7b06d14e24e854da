import ProxyFleet.Value

/-!
# Template contexts

What a template is rendered with: listeners, users and the agent they are for,
and settings that are the same for everyone.
-/

namespace ProxyFleet

namespace Context

/-- Where the statistics interface listens if nothing else is said. -/
def statsListen : String := "127.0.0.1:10085"

/-- An outbound without settings, tagged by its type. -/
def plainOutbound (type : String) : Value :=
  .obj [("type", .str type), ("tag", .str type), ("settings", .obj [])]

/-- The context for listeners, users and an agent. -/
def make (inbounds users : List Value) (agent : Value) : Fields :=
  [("inbounds", .arr inbounds),
    ("outbounds", .arr [plainOutbound "direct", plainOutbound "block"]),
    ("users", .arr users),
    ("agent", agent),
    ("server", .obj [("logLevel", .str "info"), ("listenAddr", .str "::"),
      ("dnsServer", .str "8.8.8.8"), ("statsEnabled", .bool true)]),
    ("experimental", .obj [("v2rayApi", .obj [("listen", .str statsListen),
      ("statsEnabled", .bool true)])])]

end Context

end ProxyFleet
