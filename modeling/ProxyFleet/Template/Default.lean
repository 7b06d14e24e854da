import ProxyFleet.Engine

/-!
# Default templates

One template for each engine, as a starting point.
-/

namespace ProxyFleet

namespace Template

/-- The default template for sing-box. -/
def singBoxDefault : String :=
    "\x7b\n" ++
    "  \"log\": \x7b \"level\": \x7b\x7bquote server.logLevel\x7d\x7d, " ++
    "\"timestamp\": true \x7d,\n" ++
    "  \"dns\": \x7b\x7bjson (defaultDns)\x7d\x7d,\n" ++
    "  \"inbounds\": [\n" ++
    "\x7b\x7b#each inbounds\x7d\x7d\n" ++
    "    \x7b\x7bjson (singboxInbound this ../users)\x7d\x7d\x7b\x7b#unless @last\x7d\x7d" ++
    ",\x7b\x7b/unless\x7d\x7d\n" ++
    "\x7b\x7b/each\x7d\x7d\n" ++
    "  ],\n" ++
    "  \"outbounds\": [\n" ++
    "\x7b\x7b#each outbounds\x7d\x7d\n" ++
    "    \x7b \"type\": \x7b\x7bquote type\x7d\x7d, \"tag\": \x7b\x7bquote tag\x7d\x7d" ++
    " \x7d\x7b\x7b#unless @last\x7d\x7d,\x7b\x7b/unless\x7d\x7d\n" ++
    "\x7b\x7b/each\x7d\x7d\n" ++
    "  ],\n" ++
    "  \"route\": \x7b\x7bjson (defaultRoute inbounds)\x7d\x7d" ++
    "\x7b\x7b#if experimental.v2rayApi\x7d\x7d,\n" ++
    "  \"experimental\": \x7b\n" ++
    "    \"v2ray_api\": \x7b\x7bjson (v2rayApiConfig experimental.v2rayApi.listen inbounds " ++
    "users)\x7d\x7d\n" ++
    "  \x7d\x7b\x7b/if\x7d\x7d\n" ++
    "\x7d\n"

/-- The default template for Xray. -/
def xrayDefault : String :=
    "\x7b\n" ++
    "  \"log\": \x7b \"loglevel\": \x7b\x7bquote server.logLevel\x7d\x7d \x7d,\n" ++
    "\x7b\x7b#if server.statsEnabled\x7d\x7d\n" ++
    "  \"stats\": \x7b\x7d,\n" ++
    "  \"api\": \x7b\x7bjson (lookup (xrayApiConfig \"\") \"api\")\x7d\x7d,\n" ++
    "  \"policy\": \x7b\x7bjson (lookup (xrayApiConfig \"\") \"policy\")\x7d\x7d,\n" ++
    "\x7b\x7b/if\x7d\x7d\n" ++
    "  \"inbounds\": [\n" ++
    "\x7b\x7b#each inbounds\x7d\x7d\n" ++
    "    \x7b\x7bjson (xrayInbound this ../users)\x7d\x7d" ++
    "\x7b\x7b#if (or (not @last) @root.server.statsEnabled)\x7d\x7d,\x7b\x7b/if\x7d\x7d\n" ++
    "\x7b\x7b/each\x7d\x7d\n" ++
    "\x7b\x7b#if server.statsEnabled\x7d\x7d\n" ++
    "    \x7b\x7bjson (lookup (xrayApiConfig \"\") \"apiInbound\")\x7d\x7d\n" ++
    "\x7b\x7b/if\x7d\x7d\n" ++
    "  ],\n" ++
    "  \"outbounds\": \x7b\x7bjson (xrayDefaultOutbounds)\x7d\x7d,\n" ++
    "  \"routing\": \x7b\x7bjson (xrayDefaultRouting)\x7d\x7d\n" ++
    "\x7d\n"

/-- The default template for an engine. -/
def default : Engine → String
  | .singBox => singBoxDefault
  | .xray => xrayDefault

end Template

end ProxyFleet
