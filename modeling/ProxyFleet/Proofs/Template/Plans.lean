import ProxyFleet.Template.Default
import ProxyFleet.Template.Render

/-!
# The plans of the default templates

Reading a default template and planning it is a computation without any input, so its
plan can be written down. That the plan written down is the one the template gives is
found by comparing the two (`Plan.same?`), place by place.
-/

namespace ProxyFleet

namespace Template

/-! ## Comparing plans

The comparisons answer for the kinds of steps that the default templates are made of.
For the others they have no answer. -/

mutual

/-- That two operands are the same, if they are. -/
def Operand.same? : (a b : Operand) → Option (PLift (a = b))
  | .literal l, .literal m => if h : l = m then some ⟨congrArg _ h⟩ else none
  | .way v, .way w => if h : v = w then some ⟨congrArg _ h⟩ else none
  | .tag t, .tag u => (t.same? u).map fun h => ⟨congrArg _ h.down⟩
  | _, _ => none

/-- That two tags are the same, if they are. -/
def Tag.same? : (a b : Tag) → Option (PLift (a = b))
  | .call t as [], .call u bs [] =>
    if h : t = u then (sameIn? as bs).map fun hs => ⟨by rw [h, hs.down]⟩ else none
  | _, _ => none

/-- That operands are the same one by one, if they are. -/
def sameIn? : (as bs : List Operand) → Option (PLift (as = bs))
  | [], [] => some ⟨rfl⟩
  | a :: as, b :: bs => (a.same? b).bind fun h => (sameIn? as bs).map fun hs =>
    ⟨by rw [h.down, hs.down]⟩
  | _, _ => none

end

mutual

/-- That two steps are the same, if they are. -/
def Step.same? : (a b : Step) → Option (PLift (a = b))
  | .text s, .text t => if h : s = t then some ⟨congrArg _ h⟩ else none
  | .tag t, .tag u => (t.same? u).map fun h => ⟨congrArg _ h.down⟩
  | .block t (some p) none, .block u (some q) none =>
    (t.same? u).bind fun h => (p.same? q).map fun hp => ⟨by rw [h.down, hp.down]⟩
  | _, _ => none

/-- That two plans are the same, if they are. -/
def Plan.same? : (a b : Plan) → Option (PLift (a = b))
  | .mk as single outward sharing, .mk bs single' outward' sharing' =>
    if h : single = single' ∧ outward = outward' ∧ sharing = sharing' then
      (sameSteps? as bs).map fun hs => ⟨by rw [h.1, h.2.1, h.2.2, hs.down]⟩
    else none

/-- That steps are the same one by one, if they are. -/
def sameSteps? : (as bs : List Step) → Option (PLift (as = bs))
  | [], [] => some ⟨rfl⟩
  | a :: as, b :: bs => (a.same? b).bind fun h => (sameSteps? as bs).map fun hs =>
    ⟨by rw [h.down, hs.down]⟩
  | _, _ => none

end

/-- The plan of a template, if it has one. -/
def planOf? (content : String) : Option Plan :=
  match parse content with
  | .ok p => p.plan.toOption
  | .error _ => none

/-- The plan of a template, character by character. -/
def planOfChars? (cs : List Char) : Option Plan :=
  let input := Lexeme.scan (separate .text cs)
  match Read.template (4 * input.length + 8) input with
  | .ok r => (Program.mk r.1 [] false).settled.plan.toOption
  | .error _ => none

theorem planOf?_eq_chars (content : String) : planOf? content = planOfChars? content.toList := by
  unfold planOf? parse read planOfChars?
  rw [separateBraces, String.toList_ofList]
  dsimp only
  cases Read.template _ _ <;> rfl

theorem planOf?_of_chars {content : String} {cs : List Char} {p : Plan} (hcs : content.toList = cs)
    (h : ((planOfChars? cs).any fun q => (p.same? q).isSome) = true) :
    planOf? content = some p := by
  obtain ⟨q, hplan, hsame⟩ := (Option.any_eq_true _ _).1 h
  obtain ⟨heq, -⟩ := Option.isSome_iff_exists.1 hsame
  rw [planOf?_eq_chars, hcs, hplan, heq.down]

/-! ## Parts of plans -/

/-- A way from the context a number of blocks further out. -/
def Operand.outward (depth : Nat) (names : List String) (line column : Nat) : Operand :=
  .way ⟨.context depth, names, ⟨line, column⟩⟩

/-- A way from the private data of the block. -/
def Operand.around (names : List String) (line column : Nat) : Operand :=
  .way ⟨.data 0, names, ⟨line, column⟩⟩

/-- What a helper gives for operands. -/
def Operand.of (h : Helper) (args : List Operand) : Operand := .tag (.call (.helper h) args [])

/-- A part of the statistics interface of Xray, listening where it does by default. -/
def Operand.apiPart (name : String) : Operand :=
  .tag (.call (.control .lookup)
    [.of .xrayApiConfig [.literal (.string "")], .literal (.string name)] [])

/-- What a helper gives for an operand, put into the text. -/
def Step.put (h : Helper) (o : Operand) : Step := .tag (.call (.helper h) [o] [])

/-- A block of one program. -/
def Step.around (c : Control) (o : Operand) (p : Plan) : Step :=
  .block (.call (.control c) [o] []) (some p) none

/-- A comma, and nothing else. -/
def commaPlan : Plan := .mk [.text ","] true false false

/-! ## The default template for sing-box -/

/-- What is written for a listener. -/
def singBoxInboundPlan : Plan :=
  .mk [.text "    ",
    .put .json (.of .singBoxInbound [.outward 0 [] 6 27, .outward 1 ["users"] 6 32]),
    .around .unlessTrue (.around ["last"] 6 53) commaPlan,
    .text "\n"] false true false

/-- What is written for an outbound. -/
def singBoxOutboundPlan : Plan :=
  .mk [.text "    \x7b \"type\": ",
    .put .quote (.outward 0 ["type"] 11 22),
    .text ", \"tag\": ",
    .put .quote (.outward 0 ["tag"] 11 45),
    .text " \x7d",
    .around .unlessTrue (.around ["last"] 11 62) commaPlan,
    .text "\n"] false false false

/-- What is written where the statistics interface is asked for. -/
def experimentalPlan : Plan :=
  .mk [.text ",\n  \"experimental\": \x7b\n    \"v2ray_api\": ",
    .put .json (.of .v2rayApiConfig [.outward 0 ["experimental", "v2rayApi", "listen"] 16 40,
      .outward 0 ["inbounds"] 16 69, .outward 0 ["users"] 16 78]),
    .text "\n  \x7d"] false false false

/-- The plan of the default template for sing-box. -/
def singBoxPlan : Plan :=
  .mk [.text "\x7b\n  \"log\": \x7b \"level\": ",
    .put .quote (.outward 0 ["server", "logLevel"] 2 28),
    .text ", \"timestamp\": true \x7d,\n  \"dns\": ",
    .put .json (.of .defaultDns []),
    .text ",\n  \"inbounds\": [\n",
    .around .each (.outward 0 ["inbounds"] 5 8) singBoxInboundPlan,
    .text "  ],\n  \"outbounds\": [\n",
    .around .each (.outward 0 ["outbounds"] 10 8) singBoxOutboundPlan,
    .text "  ],\n  \"route\": ",
    .put .json (.of .defaultRoute [.outward 0 ["inbounds"] 14 32]),
    .around .ifTrue (.outward 0 ["experimental", "v2rayApi"] 14 49) experimentalPlan,
    .text "\n\x7d\n"] false true false

theorem planOf?_singBoxDefault : planOf? singBoxDefault = some singBoxPlan := by
  apply planOf?_of_chars
  · unfold singBoxDefault
    repeat' first | apply toList_append_literal | exact toList_literal rfl | rfl
  · decide +kernel

/-! ## The default template for Xray -/

/-- What is written for a listener. -/
def xrayInboundPlan : Plan :=
  .mk [.text "    ",
    .put .json (.of .xrayInbound [.outward 0 [] 10 24, .outward 1 ["users"] 10 29]),
    .around .ifTrue (.of .or [.of .not [.around ["last"] 10 55],
      .around ["root", "server", "statsEnabled"] 10 62]) commaPlan,
    .text "\n"] false true false

/-- What is written at the front where statistics are kept. -/
def apiPlan : Plan :=
  .mk [.text "  \"stats\": \x7b\x7d,\n  \"api\": ",
    .put .json (.apiPart "api"),
    .text ",\n  \"policy\": ",
    .put .json (.apiPart "policy"),
    .text ",\n"] false false false

/-- What is written behind the listeners where statistics are kept. -/
def apiInboundPlan : Plan :=
  .mk [.text "    ", .put .json (.apiPart "apiInbound"), .text "\n"] false false false

/-- The plan of the default template for Xray. -/
def xrayPlan : Plan :=
  .mk [.text "\x7b\n  \"log\": \x7b \"loglevel\": ",
    .put .quote (.outward 0 ["server", "logLevel"] 2 31),
    .text " \x7d,\n",
    .around .ifTrue (.outward 0 ["server", "statsEnabled"] 3 6) apiPlan,
    .text "  \"inbounds\": [\n",
    .around .each (.outward 0 ["inbounds"] 9 8) xrayInboundPlan,
    .around .ifTrue (.outward 0 ["server", "statsEnabled"] 12 6) apiInboundPlan,
    .text "  ],\n  \"outbounds\": ",
    .put .json (.of .xrayDefaultOutbounds []),
    .text ",\n  \"routing\": ",
    .put .json (.of .xrayDefaultRouting []),
    .text "\n\x7d\n"] false true false

theorem planOf?_xrayDefault : planOf? xrayDefault = some xrayPlan := by
  apply planOf?_of_chars
  · unfold xrayDefault
    repeat' first | apply toList_append_literal | exact toList_literal rfl | rfl
  · decide +kernel

end Template

end ProxyFleet
