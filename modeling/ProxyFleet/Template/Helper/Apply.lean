import ProxyFleet.Template.Helper
import ProxyFleet.Template.Helper.Section
import ProxyFleet.Template.Item
import ProxyFleet.Text.Case
import ProxyFleet.Value.Printer

/-!
# What helpers compute

Whatever is given to a helper may have any shape: what is missing or of another
kind counts as empty text, zero or an empty list. What a helper picks out of what
it is given stays the same value; what it makes is new.
-/

namespace ProxyFleet

namespace Template

namespace Helper

/-! ## What is given -/

/-- The items of an array, each as text. -/
def textsOf (i : Item) : Except ShapeFault (List String) := i.items.mapM Item.display

/-- A value as text; a missing one leaves nothing. -/
def textOf (i : Item) : Except ShapeFault String := if i.isNothing then .ok "" else i.display

/-- The number a value stands for. -/
def numberOf : Value → Number
  | .num n => n
  | .str s =>
    if isAllBlank s then .finite 0 else (Number.ofLiteral? (trimChars s.toList)).getD (.finite 0)
  | _ => .finite 0

/-- Whether a value is left out for another: missing, empty or zero. -/
def isUnset : Item → Bool
  | .data .absent _ | .data .null _ => true
  | .data (.str s) _ => s = ""
  | .data (.num n) _ => n = .finite 0
  | _ => false

/-! ## Ends of sequences -/

/-- A unit of a text, null if there is none. -/
def unitText (c : Option Char) : Item :=
  match c with
  | some c => .text (String.ofList [c])
  | none => .plain .null

/-- The first item of an array or unit of a text, null if there is none. -/
def firstOf : Item → Item
  | .data (.str s) _ => unitText (firstUnit s.toList)
  | i => i.items.head?.getD (.plain .null)

/-- The last item of an array or unit of a text, null if there is none. -/
def lastOf : Item → Item
  | .data (.str s) _ => unitText (lastUnit s.toList)
  | i => i.items.getLast?.getD (.plain .null)

/-- How many items an array or units a text has. -/
def lengthOf : Item → Int
  | .data (.str s) _ => unitLength s.toList
  | i => i.items.length

/-! ## Data -/

/-- A value as data text, null for an absent one. A function has none. -/
def dataText (layout : Value → String) : Item → Item
  | .function .. => .absent
  | i => .text (layout (if i.toValue.isAbsent then .null else i.toValue))

/-- The listeners of an array that are of a type. -/
def ofType (listeners type : Item) : Except ShapeFault (List Item) := do
  match listeners.items.filter fun i => i.toValue.isInbound with
  | [] => pure []
  | is =>
    let wanted ← textOf type
    pure (is.filter fun i => (i.toValue.get "type").asText = wanted)

/-- What a helper gives for what is given to it, and notes of writing listeners. An array or
record that it makes gets the number. -/
def apply (h : Helper) (args : List Item) (number : Nat) : Except ShapeFault (Noted Item) :=
  let a := args.getD 0 .absent
  let b := args.getD 1 .absent
  let c := args.getD 2 .absent
  let na := numberOf a.toValue
  let nb := numberOf b.toValue
  let item (i : Item) : Except ShapeFault (Noted Item) := .ok (pure i)
  let value (v : Value) := item (.data v ⟨number, []⟩)
  let bool (b : Bool) := item (.plain (.bool b))
  let num (n : Number) := item (.plain (.num n))
  let text (t : Except ShapeFault String) : Except ShapeFault (Noted Item) :=
    t.map fun s => pure (.text s)
  let made (r : Except ShapeFault (Noted Value)) : Except ShapeFault (Noted Item) :=
    r.map fun r => do pure (.data (← r) ⟨number, []⟩)
  match h with
  | .json => item (dataText Value.tightText a)
  | .jsonIndent => item (dataText Value.spreadText a)
  | .orElse => item (if isUnset b then a else b)
  | .join => text do
    let texts ← textsOf b
    pure (joinTexts (← textOf a) texts)
  | .contains | .hasCap => do bool ((← textsOf a).contains (← textOf b))
  | .quote => text do pure (Value.str (← textOf a)).tightText
  | .usersForProtocol => do
    let type ← textOf b
    value (.arr ((Subscriber.accounts type (Subscriber.listOf a.toValue)).map
      Subscriber.Account.toValue))
  | .statsUsers => value (.texts (Subscriber.statistics (Subscriber.listOf a.toValue)))
  | .inboundTags => value (.texts (Section.tagsOf a.toValue))
  | .add => num (na.add nb)
  | .sub => num (na.sub nb)
  | .mul => num (na.mul nb)
  | .div => num (if nb.eq (.finite 0) then .finite 0 else (na.div nb).trunc)
  | .eq => bool (a.same b)
  | .ne => bool (!a.same b)
  | .gt => bool (nb.lt na)
  | .lt => bool (na.lt nb)
  | .ge => bool (nb.le na)
  | .le => bool (na.le nb)
  | .and => bool (a.isTruthy && b.isTruthy)
  | .or => bool (a.isTruthy || b.isTruthy)
  | .not => bool (!a.isTruthy)
  | .lower => text ((textOf a).map ProxyFleet.lower)
  | .upper => text ((textOf a).map ProxyFleet.upper)
  | .trim => text ((textOf a).map ProxyFleet.trim)
  | .replace => text do
    let whole ← textOf a
    let old ← textOf b
    pure (String.ofList (replaceAll old.toList (← textOf c).toList whole.toList))
  | .startsWith => do
    let whole ← textOf a
    bool ((← textOf b).toList.isPrefixOf whole.toList)
  | .endsWith => do
    let whole ← textOf a
    bool ((← textOf b).toList.isSuffixOf whole.toList)
  | .first => item (firstOf a)
  | .last => item (lastOf a)
  | .len => num (Number.ofInt (lengthOf a))
  | .isLast => bool (na.eq (nb.sub 1))
  | .isFirst => bool (na.eq (.finite 0))
  | .filterByType => do item (.list (← ofType a b) number)
  | .v2rayApiConfig => do value (Section.v2rayApi (← textOf a) b.toValue c.toValue)
  | .xrayApiConfig => do value (Section.xrayApi (← textOf a))
  | .defaultDns => value Section.dns
  | .defaultRoute => value (Section.route a.toValue)
  | .xrayDefaultOutbounds => value Section.xrayOutbounds
  | .xrayDefaultRouting => value Section.xrayRouting
  | .singBoxInbound => made (Engine.singBox.writeFor a.toValue b.toValue)
  | .xrayInbound => made (Engine.xray.writeFor a.toValue b.toValue)

end Helper

end Template

end ProxyFleet
