import Mathlib.Data.List.Forall2
import ProxyFleet.Proofs.Inbound.Record
import ProxyFleet.Proofs.Value.Reread
import ProxyFleet.Template.Render

/-!
# What runs give

A run that comes to its end gives a value, whatever was brought about before it
(`Gives`). The rules below follow how runs are put together: one for each way to name
an operand, one for the helpers as a whole, and one for each kind of step that the
default templates are made of.

What a step yields is described by the tokens that it spells (`Spelling`) and not by its
text. A yield that is scanned on its own, whatever follows it, has the same tokens
wherever it is put, so the tokens of what is joined are the tokens of the parts, one
after the other.
-/

namespace ProxyFleet

/-- The value that names lead to, if everything on the way is a record. -/
def Value.walk : Value → List String → Option Value
  | v, [] => some v
  | .obj fs, name :: names => (Fields.get fs name).walk names
  | _, _ :: _ => none

namespace Template

open Token

/-! ## Runs -/

/-- Whatever was brought about before, a run gives a value with a property. -/
def Gives {α : Type} (r : Run α) (P : α → Prop) : Prop := ∀ p, ∃ a q, r p = (.ok a, q) ∧ P a

namespace Gives

variable {α β : Type} {P Q : α → Prop} {R : β → Prop} {r : Run α} {f : α → Run β}

theorem pure {a : α} (h : P a) : Gives (pure a) P := fun p => ⟨a, p, rfl, h⟩

theorem bind (h : Gives r P) (hf : ∀ a, P a → Gives (f a) R) : Gives (r >>= f) R := by
  intro p
  obtain ⟨a, q, hr, ha⟩ := h p
  obtain ⟨b, q', hb, hR⟩ := hf a ha q
  refine ⟨b, q', ?_, hR⟩
  change (match r p with | (x, q) => ExceptT.bindCont f x q) = _
  rw [hr]
  exact hb

/-- A run gives one value, which has every property it was shown to have. -/
theorem both (h : Gives r P) (h' : Gives r Q) : ∃ a, P a ∧ Q a := by
  obtain ⟨a, q, hr, ha⟩ := h ⟨[], 0, []⟩
  obtain ⟨a', q', hr', ha'⟩ := h' ⟨[], 0, []⟩
  obtain rfl : a = a' := Except.ok.inj (congrArg Prod.fst (hr.symm.trans hr'))
  exact ⟨a, ha, ha'⟩

theorem newNumber : Gives newNumber fun _ => True := fun _ => ⟨_, _, rfl, trivial⟩

theorem collect {r : Noted α} (h : P r.value) : Gives (collect r) P := fun _ => ⟨_, _, rfl, h⟩

theorem ofShape {r : Except ShapeFault α} {a : α} (h : r = .ok a) (hP : P a) :
    Gives (ofShape r) P := by
  subst h
  exact pure hP

theorem mapM {S : α → β → Prop} {γ : Type} {f : γ → Run β} {cs : List γ} {as : List α}
    (h : List.Forall₂ (fun c a => Gives (f c) (S a)) cs as) :
    Gives (cs.mapM f) (List.Forall₂ S as) := by
  induction h with
  | nil => exact pure .nil
  | cons h _ ih =>
      rw [List.mapM_cons]
      exact bind h fun _ hb => bind ih fun _ hbs => pure (.cons hb hbs)

/-- What a fold keeps speaks of what has been gone through so far. -/
theorem foldlM {γ : Type} {S : List γ → α → Prop} {T : β → γ → Prop} {f : α → β → Run α}
    {bs : List β} {cs : List γ} {a : α} (h : List.Forall₂ T bs cs) (ha : S [] a)
    (hf : ∀ b c done a, T b c → S done a → Gives (f a b) (S (done ++ [c]))) :
    Gives (bs.foldlM f a) (S cs) := by
  suffices hfrom : ∀ done a, S done a → Gives (bs.foldlM f a) (S (done ++ cs)) from hfrom [] a ha
  clear ha
  induction h with
  | nil =>
      intro done a ha
      rw [List.append_nil]
      exact pure ha
  | cons h _ ih =>
      intro done a ha
      rw [List.foldlM_cons]
      refine bind (hf _ _ _ _ h ha) fun a' ha' => ?_
      rw [List.append_cons]
      exact ih _ _ ha'

end Gives

variable {n : Nat} {s : Scope} {P : Item → Prop}

/-! ## Operands -/

/-- Data, wherever they were found. -/
def IsData (v : Value) (i : Item) : Prop := ∃ o, i = .data v o

theorem field_record (fs : Fields) (o : Origin) (name : String) :
    ∃ i, (Item.data (.obj fs) o).field name = .ok i ∧ IsData (Fields.get fs name) i := by
  refine ⟨_, rfl, ?_⟩
  unfold Fields.get
  change IsData _ (((Fields.get? fs name).map fun w => Item.data w (o.child name)).getD .absent)
  cases Fields.get? fs name <;> exact ⟨_, rfl⟩

section Ways

variable {place : Place} {names : List String} {name : String} {i : Item} {v w : Value}

theorem follow_walk (hi : IsData v i) (hw : v.walk names = some w) :
    Gives (follow false place i names) (IsData w) := by
  induction names generalizing v i with
  | nil =>
      cases hw
      exact .pure hi
  | cons name names ih =>
      obtain ⟨o, rfl⟩ := hi
      cases v with
      | obj fs =>
          obtain ⟨j, hfield, hj⟩ := field_record fs o name
          cases names with
          | nil =>
              cases hw
              exact .ofShape hfield hj
          | cons m ms => exact .bind (.ofShape hfield hj) fun _ hk => ih hk hw
      | _ => cases hw

theorem gives_literal (l : Literal) : Gives (evalOperand (n + 1) s (.literal l)) (IsData l.value) :=
  .pure ⟨_, rfl⟩

/-- That a search is remembered does not change what it gives. -/
theorem gives_way {w : Way} {P : Item → Prop}
    (h : Gives (follow (Search.strict ⟨w, false, s.startOf w.start⟩) w.place (s.startOf w.start)
      (Search.names ⟨w, false, s.startOf w.start⟩)) P) :
    Gives (evalOperand (n + 1) s (.way w)) P :=
  fun _ => h _

/-- A way from a context leads through its records. -/
theorem gives_context {depth : Nat} (hv : IsData v (s.outward depth))
    (hw : v.walk names = some w) :
    Gives (evalOperand (n + 1) s (.way ⟨.context depth, names, place⟩)) (IsData w) :=
  gives_way (follow_walk hv hw)

/-- A way from private data leads to what they have for a name, and on from there. -/
theorem gives_private (hfield : s.frame.field name = .ok i) (hi : IsData v i)
    (hw : v.walk names = some w) :
    Gives (evalOperand (n + 1) s (.way ⟨.data 0, name :: names, place⟩)) (IsData w) := by
  refine gives_way ?_
  cases names with
  | nil =>
      cases hw
      exact .ofShape hfield hi
  | cons m ms => exact .bind (.ofShape hfield hi) fun _ hj => follow_walk hj hw

end Ways

/-! ## Helpers -/

theorem Gives.callHelper {h : Helper} {is : List Item}
    (happly : ∀ k, ∃ r, h.apply is k = .ok r ∧ P r.value) : Gives (callHelper h is) P := by
  refine .bind (P := fun _ => True) (fun _ => ⟨_, _, rfl, trivial⟩) fun _ _ =>
    .bind .newNumber fun k _ => ?_
  obtain ⟨r, hr, hP⟩ := happly k
  exact .bind (.ofShape (P := fun r => P r.value) hr hP) fun _ h => .collect h

/-- A call of a helper gives what the helper computes from data. -/
theorem helper_gives {h : Helper} {args : List Operand} {vs : List Value}
    (hargs : List.Forall₂ (fun o v => Gives (evalOperand (n + 1) s o) (IsData v)) args vs)
    (happly : ∀ is, List.Forall₂ IsData vs is → ∀ k, ∃ r, h.apply is k = .ok r ∧ P r.value) :
    Gives (evalTag (n + 2) s (.call (.helper h) args []) (pure .none)) P := by
  rw [evalTag]
  refine .bind (.mapM hargs) fun is his => ?_
  have hnothing : ∀ {α : Type} {a : α}, Gives (pure a) fun _ => True := .pure trivial
  exact .bind hnothing fun _ _ => .bind hnothing fun _ _ => .callHelper (happly is his)

/-! ## Yields -/

/-- A text that spells tokens, whatever follows it. -/
def Spelling (ts : List Token) (i : Item) : Prop :=
  ∃ cs, i = .text (String.ofList cs) ∧ Closed cs ts

namespace Spelling

variable {ts us : List Token} {i j : Item}

theorem empty : Spelling [] (.text "") := ⟨[], rfl, .nil⟩

theorem of_text {t : String} (h : Closed t.toList ts) : Spelling ts (.text t) :=
  ⟨t.toList, by rw [String.ofList_toList], h⟩

/-- Yields are joined by their texts, and so by their tokens. -/
theorem plus (hi : Spelling ts i) (hj : Spelling us j) :
    ∃ k, i.plus j = .ok k ∧ Spelling (ts ++ us) k := by
  obtain ⟨cs, rfl, hcs⟩ := hi
  obtain ⟨ds, rfl, hds⟩ := hj
  have hplus : (Item.text (String.ofList cs)).plus (.text (String.ofList ds)) =
      .ok (.text (String.ofList cs ++ String.ofList ds)) := by
    simp [Item.plus, Item.primitive, Item.text, Item.plain, Item.isObject, Item.toValue, bind,
      Except.bind, pure, Except.pure]
  exact ⟨_, hplus, cs ++ ds, by rw [String.ofList_append], hcs.append hds⟩

end Spelling

/-! ## Steps -/

variable {ts : List Token}

theorem text_spells {t : String} (h : Closed t.toList ts) :
    Gives (runStep (n + 1) s (.text t)) (Spelling ts) := .pure (.of_text h)

/-- Data are written without spaces. What is in brackets or in quotes can stand anywhere. -/
theorem json_spells {o : Operand} {v : Value}
    (ho : Gives (evalOperand (n + 1) s o) (IsData v)) (hv : v.isAbsent = false)
    (hclosed : Closed (Printer.value .tight 0 v) v.tokens) :
    Gives (runStep (n + 3) s (.tag (.call (.helper .json) [o] []))) (Spelling v.tokens) := by
  refine helper_gives (.cons ho .nil) fun is his k => ?_
  obtain _ | ⟨⟨o, rfl⟩, ⟨⟩⟩ := his
  refine ⟨_, rfl, _, ?_, hclosed⟩
  change Item.text (Value.tightText (if v.isAbsent then .null else v)) = _
  rw [hv]
  rfl

theorem quote_spells {o : Operand} {t : String}
    (ho : Gives (evalOperand (n + 1) s o) (IsData (.str t))) :
    Gives (runStep (n + 3) s (.tag (.call (.helper .quote) [o] []))) (Spelling [.text t]) := by
  refine helper_gives (.cons ho .nil) fun is his k => ?_
  obtain _ | ⟨⟨o, rfl⟩, ⟨⟩⟩ := his
  have hquote : Helper.quote.apply [.data (.str t) o] k =
      .ok (pure (.text (Value.str t).tightText)) := by
    simp [Helper.apply, Helper.textOf, Item.isNothing, Value.isNothing, Item.display,
      Item.toValue, Except.map, bind, Except.bind, pure, Except.pure]
  have htext : (Value.str t).tightText = String.ofList (Printer.quoted t) := by
    rw [Value.tightText, Printer.value]
  exact ⟨_, hquote, _, by rw [← htext]; rfl, closed_quoted t⟩

/-! ## Plans -/

/-- A step that needs nothing of the steps before it: it does not settle what they yielded, and it
reads no block parameter. It yields something of its own. -/
def Step.isPlain (st : Step) : Bool := !(st.isDefinition || st.settles || st.readsParameter)

/-- A plan of such steps. -/
structure Plan.Plain (p : Plan) : Prop where
  single : p.single = (p.steps.length == 1)
  sharing : p.sharing = false
  steps : p.steps.all Step.isPlain = true

/-- What has been joined spells the tokens of what was yielded. -/
structure Joined.Spells (tss : List (List Token)) (j : Joined) : Prop where
  since : j.since = none
  settled : j.settled = none ∧ tss = [] ∨ ∃ i, j.settled = some i ∧ Spelling tss.flatten i

theorem joinOnto_spells {tss : List (List Token)} {j : Joined} {i : Item} (hj : j.Spells tss)
    (hi : Spelling ts i) :
    Gives (joinOnto j.settled i) fun i =>
      Joined.Spells (tss ++ [ts]) { j with settled := some i } := by
  have hsince := hj.since
  obtain ⟨hnone, rfl⟩ | ⟨a, hsome, ha⟩ := hj.settled
  · rw [hnone]
    exact .pure ⟨hsince, .inr ⟨i, rfl, by simpa using hi⟩⟩
  · obtain ⟨k, hplus, hk⟩ := ha.plus hi
    rw [hsome]
    exact .ofShape hplus ⟨hsince, .inr ⟨k, rfl, by simpa using hk⟩⟩

theorem turns_plain {p : Plan} (h : p.Plain) :
    p.turns = p.steps.map fun st => ⟨st, false, false⟩ := by
  have hgo : ∀ sts : List Step, sts.all Step.isPlain = true →
      sts.any Step.settles = false ∧
        Plan.turns.go false sts = sts.map fun st => ⟨st, false, false⟩ := by
    intro sts hsts
    induction sts with
    | nil => exact ⟨rfl, rfl⟩
    | cons st sts ih =>
        simp only [List.all_cons, Bool.and_eq_true, Step.isPlain, Bool.not_eq_true',
          Bool.or_eq_false_iff] at hsts
        obtain ⟨⟨⟨hdefinition, hsettles⟩, hreads⟩, hrest⟩ := hsts
        obtain ⟨hany, hgo⟩ := ih hrest
        rw [Plan.turns.go]
        simp [hdefinition, hsettles, hreads, hany, hgo]
  rw [Plan.turns, h.sharing]
  exact (hgo p.steps h.steps).2

/-- What a plain plan yields spells what its steps yield, one after the other. -/
theorem runPlan_spells {p : Plan} {tss : List (List Token)} (hp : p.Plain)
    (hs : s.passing = false)
    (h : List.Forall₂ (fun st ts => Gives (runStep n s st) (Spelling ts)) p.steps tss) :
    Gives (runPlan (n + 1) s p) (Spelling tss.flatten) := by
  have hscope : { s with passing := false } = s := by
    obtain ⟨_, _, _, _, _, _⟩ := s
    exact congrArg _ hs.symm
  have hyield : ∀ {ts i}, Spelling ts i → Spelling ts (orEmpty i) := by
    rintro ts i ⟨cs, rfl, hcs⟩
    exact ⟨cs, rfl, hcs⟩
  rw [runPlan, turns_plain hp, hp.single]
  split
  · next hsingle =>
      obtain ⟨st, hst⟩ := List.length_eq_one_iff.1 (beq_iff_eq.1 hsingle)
      rw [hst] at h ⊢
      obtain _ | ⟨hstep, ⟨⟩⟩ := h
      rw [List.flatten_singleton]
      change Gives (do pure (orEmpty (← runStep n { s with passing := false } st))) _
      rw [hscope]
      exact .bind hstep fun _ hi => .pure (hyield hi)
  · have hturns : List.Forall₂ (fun (t : Turn) ts => ∃ st, t = ⟨st, false, false⟩ ∧
        st.settles = false ∧ Gives (runStep n s st) (Spelling ts))
        (p.steps.map fun st => ⟨st, false, false⟩) tss := by
      refine List.forall₂_map_left_iff.2 (((List.forall₂_and_left _ _).2
        ⟨List.all_eq_true.1 hp.steps, h⟩).imp ?_)
      rintro st ts ⟨hst, hstep⟩
      simp only [Step.isPlain, Bool.not_eq_true', Bool.or_eq_false_iff] at hst
      exact ⟨st, rfl, hst.1.2, hstep⟩
    refine .bind (.foldlM (S := Joined.Spells) hturns ⟨rfl, .inl ⟨rfl, rfl⟩⟩ ?_) fun j hj => ?_
    · rintro _ ts done j ⟨st, rfl, hsettles, hstep⟩ hj
      simp only [hscope, hsettles, Bool.false_eq_true, if_false]
      exact .bind hstep fun i hi => .bind (joinOnto_spells hj (hyield hi)) fun _ hk => .pure hk
    · rw [Joined.all, hj.since]
      obtain ⟨hnone, rfl⟩ | ⟨i, hsome, hi⟩ := hj.settled
      · rw [hnone]
        exact .pure .empty
      · rw [hsome]
        exact .pure hi

/-! ## Blocks -/

section Blocks

variable {p : Plan} {o : Operand} {v : Value}

theorem definitions_plain (hp : p.Plain) : Gives (definitions (n + 1) s p) (· = []) := by
  refine .foldlM (S := fun _ acc => acc = []) (T := fun st _ => st.isPlain = true)
    (List.forall₂_same.2 (List.all_eq_true.1 hp.steps)) rfl ?_
  rintro st _ _ _ hst rfl
  cases st with
  | definition => cases hst
  | _ => exact .pure rfl

/-- A plan that defines no partials is closed over what is seen where it is met. -/
theorem close_plain (hp : p.Plain) :
    Gives (close (n + 2) s p) (· = .mk p s.params s.depths s.frame []) :=
  .bind (definitions_plain hp) fun _ hown => .pure (hown ▸ rfl)

/-- A block of a control helper is met by what the helper is given and by its one program. -/
theorem control_gives {c : Control} (hc : c ≠ .reserved) (hp : p.Plain)
    (ho : Gives (evalOperand (n + 3) s o) (IsData v))
    (h : ∀ i, IsData v i → Gives (evalControl (n + 3) s c [i] []
      (.some (some (.mk p s.params s.depths s.frame [])) none)) P) :
    Gives (runStep (n + 5) s (.block (.call (.control c) [o] []) (some p) none)) P := by
  rw [runStep, evalTag]
  · refine .bind (.mapM (.cons ho .nil)) fun is his => ?_
    obtain _ | ⟨hi, ⟨⟩⟩ := his
    refine .bind (P := (· = [])) (.pure rfl) ?_
    rintro _ rfl
    have hbranches : Gives (do
        let program ← closeOptional (n + 4) s (some p)
        let inverse ← closeOptional (n + 4) s none
        pure (Branches.some program inverse))
        (· = Branches.some (some (.mk p s.params s.depths s.frame [])) none) := by
      refine .bind (P := (· = some (.mk p s.params s.depths s.frame []))) ?_ fun _ hc => ?_
      · exact .bind (close_plain hp) fun _ hc => .pure (congrArg some hc)
      · exact .bind (P := (· = none)) (.pure rfl) fun _ hi => .pure (by rw [hc, hi])
    exact .bind hbranches fun bs hbs => hbs ▸ h _ hi
  · rintro rfl
    exact hc rfl

theorem callValue_data {i : Item} (hi : IsData v i) : Gives (callValue (n + 1) s i) (· = i) := by
  obtain ⟨r, rfl⟩ := hi
  exact .pure rfl

/-! ### Conditions -/

/-- Going into a block comes about where the contexts are records. -/
structure Scope.Grounded (s : Scope) : Prop where
  context : ∃ fs o, s.context = .data (.obj fs) o
  depths : ∀ ds ∈ s.depths, ∃ fs o rest, ds = .data (.obj fs) o :: rest

theorem deepen_records (fs gs : Fields) (o r : Origin) (rest : List Item) :
    Gives (deepen (.data (.obj fs) o) (some (.data (.obj gs) r :: rest))) (· = some
      (if o = r then .data (.obj gs) r :: rest
        else .data (.obj fs) o :: .data (.obj gs) r :: rest)) := by
  have hsame : (Item.data (.obj fs) o).looselySame (.data (.obj gs) r) = .ok (decide (o = r)) := rfl
  have hnull : ((Item.data (.obj gs) r).toValue == .null) = false := rfl
  refine .bind (.ofShape (P := (· = decide (o = r))) hsame rfl) ?_
  rintro _ rfl
  change Gives (if (decide (o = r) || (_ && (Item.data (.obj gs) r).toValue == .null)) = true then
    pure _ else pure _) _
  rw [hnull, Bool.and_false, Bool.or_false]
  by_cases h : o = r
  · rw [if_pos (decide_eq_true h), if_pos h]
    exact .pure rfl
  · rw [if_neg (by simpa using h), if_neg h]
    exact .pure rfl

theorem Scope.Grounded.deepens (h : s.Grounded) :
    Gives (deepen s.receiver s.depths) fun _ => True := by
  obtain ⟨fs, o, hcontext⟩ := h.context
  have hreceiver : s.receiver = .data (.obj fs) o := by
    rw [Scope.receiver, hcontext]
    rfl
  rw [hreceiver]
  cases hdepths : s.depths with
  | none => exact .pure trivial
  | some ds =>
      obtain ⟨gs, r, rest, rfl⟩ := h.depths ds hdepths
      intro p
      obtain ⟨a, q, hrun, -⟩ := deepen_records fs gs o r rest p
      exact ⟨a, q, hrun, trivial⟩

/-- What is seen in the program of a condition, if it does not look out of it. -/
def Scope.inside (s : Scope) : Scope :=
  ⟨s.context, none, s.frame, .absent :: s.params, s.partials, false⟩

/-- The program of a block is run where a condition holds. -/
theorem runBranch_spells {b : Bool} (hs : s.Grounded) (hinward : p.outward = false)
    (h : b = true → Gives (runPlan n s.inside p) (Spelling ts)) :
    Gives (runBranch (n + 2) s b s.receiver
      (.some (some (.mk p s.params s.depths s.frame [])) none))
      (Spelling (if b then ts else [])) := by
  obtain ⟨fs, o, hcontext⟩ := hs.context
  have hreceiver : s.receiver = s.context := by
    rw [Scope.receiver, hcontext]
    rfl
  cases b with
  | false => exact .pure .empty
  | true =>
      refine .bind hs.deepens fun _ _ => ?_
      rw [hreceiver, hinward]
      exact h rfl

theorem if_spells {b : Bool} (hs : s.Grounded) (hp : p.Plain) (hinward : p.outward = false)
    (ho : Gives (evalOperand (n + 3) s o) (IsData v)) (hv : ∀ i, IsData v i → holds i [] = b)
    (h : b = true → Gives (runPlan n s.inside p) (Spelling ts)) :
    Gives (runStep (n + 5) s (.block (.call (.control .ifTrue) [o] []) (some p) none))
      (Spelling (if b then ts else [])) := by
  refine control_gives nofun hp ho fun i hi => ?_
  have hb := hv i hi
  rw [evalControl]
  refine .bind (callValue_data hi) ?_
  rintro _ rfl
  rw [hb]
  exact runBranch_spells hs hinward h

theorem unless_spells {b : Bool} (hs : s.Grounded) (hp : p.Plain) (hinward : p.outward = false)
    (ho : Gives (evalOperand (n + 3) s o) (IsData v)) (hv : ∀ i, IsData v i → holds i [] = b)
    (h : b = false → Gives (runPlan n s.inside p) (Spelling ts)) :
    Gives (runStep (n + 5) s (.block (.call (.control .unlessTrue) [o] []) (some p) none))
      (Spelling (if b then [] else ts)) := by
  refine control_gives nofun hp ho fun i hi => ?_
  have hb := hv i hi
  have hbranch := runBranch_spells (b := !b) hs hinward fun hnot => h (by simpa using hnot)
  rw [evalControl]
  refine .bind (callValue_data hi) ?_
  rintro _ rfl
  rw [hb]
  cases b <;> exact hbranch

/-! ### Loops -/

/-- What is seen by a template as a whole. -/
def Scope.whole (fs : Fields) : Scope :=
  let root := rootContext (.obj fs)
  ⟨root, some [root], rootFrame root, [], [], false⟩

/-- What is seen in the program of a loop over the items of an array: the item, around it the
context as a whole, and whether the item is the last one. -/
structure Scope.Visits (fs : Fields) (outward : Bool) (x : Value) (last : Bool) (s : Scope) :
    Prop where
  context : IsData x s.context
  around : outward = true → s.outward 1 = rootContext (.obj fs)
  root : s.frame.field "root" = .ok (rootContext (.obj fs))
  last : s.frame.field "last" = .ok (.plain (.bool last))
  grounded : s.Grounded
  passing : s.passing = false

/-- What is yielded for the items of a list, one after the other, told which one is the last. -/
def eachOf {α β : Type} (f : Bool → α → List β) : List α → List β
  | [] => []
  | [x] => f true x
  | x :: y :: xs => f false x ++ eachOf f (y :: xs)

theorem eachOf_eq {α β : Type} (f : Bool → α → List β) (xs : List α) (k : Nat) :
    eachOf f xs =
      ((xs.zipIdx k).map fun e => f (decide (e.2 + 1 = k + xs.length)) e.1).flatten := by
  induction xs generalizing k with
  | nil => rfl
  | cons x xs ih =>
      cases xs with
      | nil => simp [eachOf]
      | cons y ys =>
          have hlength : k + 1 + (y :: ys).length = k + (x :: y :: ys).length := by
            simp only [List.length_cons]
            omega
          have hfirst : ¬k + 1 = k + (x :: y :: ys).length := by
            simp only [List.length_cons]
            omega
          have hcons : (x :: y :: ys).zipIdx k = (x, k) :: (y :: ys).zipIdx (k + 1) := rfl
          rw [eachOf, ih (k + 1), hlength, hcons, List.map_cons, List.flatten_cons,
            decide_eq_false hfirst]

theorem iteration_array (xs : List Value) (o : Origin) :
    (iteration (.data (.arr xs) o)).map (fun e => e.1.toValue) = xs ∧
      ∀ e ∈ iteration (.data (.arr xs) o), ∃ x name, e.1 = .data x (o.child name) := by
  have hsteps : iteration (.data (.arr xs) o) = xs.zipIdx.zipIdx.map fun e =>
      (.data e.1.1 (o.child (toString e.1.2)), .int e.2) := by
    simp only [iteration, Item.isArray, Item.items, if_true, List.zipIdx_map, List.map_map]
    rfl
  rw [hsteps]
  constructor
  · rw [List.map_map]
    calc
      xs.zipIdx.zipIdx.map _ = (xs.zipIdx.zipIdx.map Prod.fst).map Prod.fst := by
        rw [List.map_map]
        rfl
      _ = xs := by rw [List.zipIdx_map_fst, List.zipIdx_map_fst]
  · intro e he
    obtain ⟨⟨⟨x, i⟩, k⟩, -, rfl⟩ := List.mem_map.1 he
    exact ⟨x, _, rfl⟩

/-- The private data of a visit say whether it is the last one, and hold what those around do. -/
theorem newFrame_visit (root : Item) (key index first : Value) (last : Bool) :
    Gives (newFrame (Scope.rootFrame root) [("key", .plain key), ("index", .plain index),
      ("first", .plain first), ("last", .plain (.bool last))]) fun frame =>
        frame.field "root" = .ok root ∧ frame.field "last" = .ok (.plain (.bool last)) := by
  refine .bind .newNumber fun k _ => .pure ?_
  simp [Item.field, Item.isNothing, Item.own?, Item.parts, Scope.rootFrame, aroundName,
    Fields.putAll, Fields.get?_put_self, Fields.get?_put_of_ne]

theorem visit_spells {fs gs : Fields} {r : Origin} {name : String} {frame param : Item}
    {last : Bool} (hroot : frame.field "root" = .ok (Scope.rootContext (.obj fs)))
    (hlast : frame.field "last" = .ok (.plain (.bool last)))
    (h : ∀ s, Scope.Visits fs p.outward (.obj gs) last s → Gives (runPlan n s p) (Spelling ts)) :
    let s := Scope.whole fs
    Gives (invoke (n + 1) s.partials (.mk p s.params s.depths s.frame [])
      (.data (.obj gs) (r.child name)) (some frame) param) (Spelling ts) := by
  have hinside : r.child name ≠ ⟨0, []⟩ := fun h => nomatch congrArg Origin.names h
  refine .bind (deepen_records gs fs (r.child name) ⟨0, []⟩ []) ?_
  rintro _ rfl
  rw [if_neg hinside]
  refine h _ ⟨⟨_, rfl⟩, fun houtward => ?_, hroot, hlast, ⟨⟨gs, _, rfl⟩, ?_⟩, rfl⟩
  · rw [houtward]
    rfl
  · cases p.outward with
    | false => exact nofun
    | true =>
        rintro ds hds
        exact ⟨gs, _, _, (Option.some.inj hds).symm⟩

theorem closed_flatMap {α : Type} {as : List α} {texts : List String} {tokens : α → List Token}
    (h : List.Forall₂ (fun a t => Closed (String.toList t) (tokens a)) as texts) :
    Closed (texts.flatMap String.toList) (as.map tokens).flatten := by
  induction h with
  | nil => exact .nil
  | cons h _ ih => exact h.append ih

theorem forall₂_zipIdx {α β : Type} {R : α → β → Prop} {as : List α} {bs : List β}
    (h : List.Forall₂ R as bs) (k : Nat) :
    List.Forall₂ (fun a b => a.2 = b.2 ∧ R a.1 b.1) (as.zipIdx k) (bs.zipIdx k) := by
  induction h generalizing k with
  | nil => exact .nil
  | cons h _ ih => exact .cons ⟨rfl, h⟩ (ih (k + 1))

/-- A loop at the top of a template yields what its program yields for each item. -/
theorem each_spells {α : Type} {fs : Fields} {xs : List Value} {as : List α}
    {line : Bool → α → List Token} (hp : p.Plain)
    (ho : Gives (evalOperand (n + 3) (.whole fs) o) (IsData (.arr xs)))
    (h : List.Forall₂ (fun x a => x.isRecord = true ∧ ∀ last s, Scope.Visits fs p.outward x last s →
      Gives (runPlan n s p) (Spelling (line last a))) xs as) :
    Gives (runStep (n + 5) (.whole fs) (.block (.call (.control .each) [o] []) (some p) none))
      (Spelling (eachOf line as)) := by
  refine control_gives nofun hp ho fun i hi => ?_
  rw [evalControl]
  refine .bind (callValue_data hi) ?_
  rintro _ rfl
  obtain ⟨o, rfl⟩ := hi
  obtain ⟨hvalues, hitems⟩ := iteration_array xs o
  split
  · next hnone =>
      rw [List.isEmpty_iff.1 hnone] at hvalues
      subst hvalues
      obtain ⟨⟩ := h
      exact .pure .empty
  · rw [eachItem]
    dsimp only
    generalize iteration (.data (.arr xs) o) = steps at hvalues hitems
    have hlength : steps.length = as.length := by
      rw [← h.length_eq, ← hvalues, List.length_map]
    rw [← hvalues, List.forall₂_map_left_iff] at h
    rw [eachOf_eq line as 0, Nat.zero_add, ← hlength]
    have hsteps := forall₂_zipIdx ((List.forall₂_and_left _ _).2 ⟨hitems, h⟩) 0
    refine .bind (.mapM (S := fun e t => Closed (String.toList t)
      (line (decide (e.2 + 1 = steps.length)) e.1)) (hsteps.imp ?_)) fun texts htexts => ?_
    · rintro ⟨⟨item, key⟩, k⟩ ⟨a, _⟩ ⟨rfl, ⟨x, name, rfl⟩, hrecord, hline⟩
      obtain ⟨gs, rfl⟩ := Value.isRecord_iff.1 hrecord
      refine .bind (newFrame_visit _ _ _ _ _) fun frame hframe => .bind .newNumber fun _ _ => ?_
      refine .bind (visit_spells hframe.1 hframe.2 (hline _)) ?_
      rintro _ ⟨cs, rfl, hcs⟩
      refine .ofShape (Value.display_str _) ?_
      rwa [String.toList_ofList]
    · refine .pure (.of_text ?_)
      rw [String.toList_join]
      exact closed_flatMap htexts

end Blocks

end Template

end ProxyFleet
