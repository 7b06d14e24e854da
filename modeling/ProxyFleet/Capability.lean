/-!
# Capabilities

The features a proxy core may or may not have, as a closed list of tokens.
-/

namespace ProxyFleet

/-- A feature of a proxy core. -/
inductive Capability where
  | reality
  | multiplex
  | brutal
  | ech
  | utls
  | quic
  | v2rayApi
  | wireguard
  | tun
  | http3
  | dhcp
  | geoip
  | geosite
  | xtls
  | splithttp
  | meek
  | mkcp
  | domainsock
  | stats
  deriving DecidableEq, Repr

namespace Capability

/-- The token of a capability. -/
def name : Capability → String
  | .reality => "reality"
  | .multiplex => "multiplex"
  | .brutal => "brutal"
  | .ech => "ech"
  | .utls => "utls"
  | .quic => "quic"
  | .v2rayApi => "v2ray_api"
  | .wireguard => "wireguard"
  | .tun => "tun"
  | .http3 => "http3"
  | .dhcp => "dhcp"
  | .geoip => "geoip"
  | .geosite => "geosite"
  | .xtls => "xtls"
  | .splithttp => "splithttp"
  | .meek => "meek"
  | .mkcp => "mkcp"
  | .domainsock => "domainsock"
  | .stats => "stats"

/-- All capabilities, in their listing order. -/
def all : List Capability :=
  [.reality, .multiplex, .brutal, .ech, .utls, .quic, .v2rayApi, .wireguard, .tun, .http3, .dhcp,
    .geoip, .geosite, .xtls, .splithttp, .meek, .mkcp, .domainsock, .stats]

/-- The capability a token stands for. -/
def ofName? (token : String) : Option Capability := all.find? (·.name == token)

/-- The capabilities of a list, each once, in listing order. -/
def sorted (caps : List Capability) : List Capability := all.filter (caps.contains ·)

end Capability

end ProxyFleet
