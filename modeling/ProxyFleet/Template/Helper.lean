/-!
# Helpers

The names a template can call. A helper computes a value from what it is given
(`Helper`); the others run the programs of blocks or look into values
(`Control`). A name that is neither is looked up in what the template sees.
-/

namespace ProxyFleet

namespace Template

/-- The helpers that compute a value. -/
inductive Helper where
  | json | jsonIndent | orElse | join | contains | quote
  | usersForProtocol | statsUsers | inboundTags
  | add | sub | mul | div
  | eq | ne | gt | lt | ge | le
  | and | or | not
  | lower | upper | trim | replace | startsWith | endsWith
  | first | last | len | isLast | isFirst
  | hasCap | filterByType
  | v2rayApiConfig | xrayApiConfig | defaultDns | defaultRoute | xrayDefaultOutbounds
  | xrayDefaultRouting
  | singBoxInbound | xrayInbound
  deriving DecidableEq, Repr

namespace Helper

/-- The name of a helper in templates. -/
def name : Helper → String
  | .json => "json"
  | .jsonIndent => "jsonIndent"
  | .orElse => "default"
  | .join => "join"
  | .contains => "contains"
  | .quote => "quote"
  | .usersForProtocol => "usersForProtocol"
  | .statsUsers => "statsUsers"
  | .inboundTags => "inboundTags"
  | .add => "add"
  | .sub => "sub"
  | .mul => "mul"
  | .div => "div"
  | .eq => "eq"
  | .ne => "ne"
  | .gt => "gt"
  | .lt => "lt"
  | .ge => "ge"
  | .le => "le"
  | .and => "and"
  | .or => "or"
  | .not => "not"
  | .lower => "lower"
  | .upper => "upper"
  | .trim => "trim"
  | .replace => "replace"
  | .startsWith => "hasPrefix"
  | .endsWith => "hasSuffix"
  | .first => "first"
  | .last => "last"
  | .len => "len"
  | .isLast => "isLast"
  | .isFirst => "isFirst"
  | .hasCap => "hasCap"
  | .filterByType => "filterByType"
  | .v2rayApiConfig => "v2rayApiConfig"
  | .xrayApiConfig => "xrayApiConfig"
  | .defaultDns => "defaultDns"
  | .defaultRoute => "defaultRoute"
  | .xrayDefaultOutbounds => "xrayDefaultOutbounds"
  | .xrayDefaultRouting => "xrayDefaultRouting"
  | .singBoxInbound => "singboxInbound"
  | .xrayInbound => "xrayInbound"

/-- All helpers. -/
def all : List Helper :=
  [.json, .jsonIndent, .orElse, .join, .contains, .quote, .usersForProtocol, .statsUsers,
    .inboundTags, .add, .sub, .mul, .div, .eq, .ne, .gt, .lt, .ge, .le, .and, .or, .not, .lower,
    .upper, .trim, .replace, .startsWith, .endsWith, .first, .last, .len, .isLast, .isFirst,
    .hasCap, .filterByType, .v2rayApiConfig, .xrayApiConfig, .defaultDns, .defaultRoute,
    .xrayDefaultOutbounds, .xrayDefaultRouting, .singBoxInbound, .xrayInbound]

/-- The helper of a name. -/
def ofName? (s : String) : Option Helper := all.find? (·.name == s)

end Helper

/-- The helpers that run blocks, and the names that are kept for the rules of blocks. -/
inductive Control where
  | each
  | ifTrue
  | unlessTrue
  | within
  | lookup
  | log
  | reserved
  deriving DecidableEq, Repr

/-- The control helper of a name. -/
def Control.ofName? (name : String) : Option Control :=
  match name with
  | "each" => some .each
  | "if" => some .ifTrue
  | "unless" => some .unlessTrue
  | "with" => some .within
  | "lookup" => some .lookup
  | "log" => some .log
  | "helperMissing" | "blockHelperMissing" => some .reserved
  | _ => none

/-- A helper of either kind. -/
inductive Callee where
  | helper (h : Helper)
  | control (c : Control)
  deriving DecidableEq, Repr

/-- The helper of a name. -/
def Callee.ofName? (name : String) : Option Callee :=
  match Control.ofName? name with
  | some c => some (.control c)
  | none => (Helper.ofName? name).map .helper

end Template

end ProxyFleet
