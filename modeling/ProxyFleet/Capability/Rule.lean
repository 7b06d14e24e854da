import ProxyFleet.Capability
import ProxyFleet.Engine
import ProxyFleet.Version

/-!
# What a core can do

Which capabilities come with which version of an engine, and which with a build
tag. An agent that reports no capabilities is taken to have those of its version
and build tags; one whose engine or version is unknown has none.
-/

namespace ProxyFleet

/-- A capability that comes with a version, some only with a build tag besides. -/
structure CapabilityRule where
  capability : Capability
  minVersion : String
  buildTag : Option String
  deriving Repr

/-- The build tag that the statistics interface of sing-box needs. -/
def v2rayApiTag : String := "with_v2ray_api"

namespace Engine

/-- The capabilities that come with versions of an engine. -/
def versionRules : Engine → List CapabilityRule
  | .singBox => [⟨.reality, "1.3.0", none⟩, ⟨.multiplex, "1.3.0", none⟩, ⟨.brutal, "1.7.0", none⟩,
    ⟨.ech, "1.8.0", none⟩, ⟨.v2rayApi, "1.0.0", some v2rayApiTag⟩, ⟨.quic, "1.0.0", none⟩,
    ⟨.http3, "1.8.0", none⟩]
  | .xray => [⟨.reality, "1.8.0", none⟩, ⟨.xtls, "1.0.0", none⟩, ⟨.stats, "1.0.0", none⟩,
    ⟨.v2rayApi, "1.0.0", none⟩, ⟨.splithttp, "1.8.11", none⟩, ⟨.meek, "1.6.0", none⟩,
    ⟨.mkcp, "1.0.0", none⟩, ⟨.quic, "1.3.0", none⟩, ⟨.multiplex, "1.8.0", none⟩,
    ⟨.geoip, "1.0.0", none⟩, ⟨.geosite, "1.0.0", none⟩, ⟨.domainsock, "1.0.0", none⟩,
    ⟨.wireguard, "1.8.0", none⟩]

/-- The capabilities that a build tag alone brings. -/
def tagRules : Engine → List (String × Capability)
  | .singBox => [("with_quic", .quic), ("with_wireguard", .wireguard), ("with_utls", .utls),
    ("with_ech", .ech), ("with_gvisor", .tun), ("with_dhcp", .dhcp)]
  | .xray => [("with_geoip", .geoip), ("with_geosite", .geosite)]

end Engine

namespace Capability

/-- The token a reported name stands for: without blanks around it, in lower case, hyphens as
underscores. -/
def normalizeName (name : String) : String :=
  String.ofList ((lower (trim name)).toList.map fun c => if c = '-' then '_' else c)

/-- The capabilities among reported names. -/
def ofNames (reported : List String) : List Capability :=
  sorted (reported.filterMap fun n => ofName? (normalizeName n))

/-- The capabilities of a version of an engine with build tags. -/
def derive (coreType coreVersion : String) (buildTags : List String) : List Capability :=
  match Engine.ofName? coreType, Version.ofText? coreVersion with
  | some e, some _ =>
    let tags := buildTags.map fun t => lower (trim t)
    sorted (
      ((e.versionRules.filter fun r => versionAtLeast coreVersion r.minVersion
          && r.buildTag.all (tags.contains ·)).map (·.capability))
      ++ (e.tagRules.filter fun r => tags.contains r.1).map (·.2))
  | _, _ => []

end Capability

end ProxyFleet
