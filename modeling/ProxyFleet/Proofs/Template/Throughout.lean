import ProxyFleet.Proofs.Template.Closures
import ProxyFleet.Template.Render

/-!
# What holds of all parts of a run

Runs are put together from few things: a value, a fault, a search, a number, the call of a
helper, and one run after another. What holds of these holds of whatever a template does
(`runTemplate_has`), by one walk through the functions that run it, however deep they call
each other. So that a new property of runs needs no walk of its own, the walk is made for all
of them at once.

Of searches it is enough that the property holds of those for ways of the template. The walk
carries with it that nothing else is searched for: what a part of a run gives leads to no plans
but those of the template, if all that the part sees leads to no others (`Item.Within`).
-/

namespace ProxyFleet

namespace Template

/-! ## Calls of helpers -/

theorem foldl_tell (notes : List String) (p : Progress) :
    notes.foldl (fun p text => p.tell (.note text)) p =
      { p with told := (notes.map Told.note).reverse ++ p.told } := by
  induction notes generalizing p with
  | nil => rfl
  | cons text notes ih =>
      rw [List.foldl_cons, ih]
      simp [Progress.tell]

/-- A call of a helper is told first, and then what it notes, if it comes to its end. -/
theorem callHelper_eq (h : Helper) (args : List Item) (p : Progress) :
    callHelper h args p = match h.apply args p.made with
      | .ok r => (.ok r.value, ⟨(r.notes.map Told.note).reverse ++ .call ⟨h, args⟩ :: p.told,
          p.made + 1, p.searches⟩)
      | .error e => (.error (.misshapen e),
          ⟨.call ⟨h, args⟩ :: p.told, p.made + 1, p.searches⟩) := by
  have hcall : callHelper h args p = (ofShape (h.apply args p.made) >>= collect)
      ⟨.call ⟨h, args⟩ :: p.told, p.made + 1, p.searches⟩ := rfl
  rw [hcall]
  cases h.apply args p.made with
  | error e => rfl
  | ok r =>
      change (Except.ok r.value, r.notes.foldl _ _) = _
      rw [foldl_tell]

/-! ## Properties of runs -/

/-- Something that may hold of a run. -/
abbrev RunProperty := (α : Type) → Run α → Prop

/-- A run can give a value. -/
def CanGive {α : Type} (r : Run α) (a : α) : Prop := ∃ p q, r p = (.ok a, q)

/-- A property of what runs are put together from, which putting together keeps. What comes next
has to have it only for values that it can be given. -/
class Composed (K : RunProperty) : Prop where
  pure {α : Type} (a : α) : K α (pure a)
  throw {α : Type} (f : RunFault) : K α (throw f)
  bind {α β : Type} {r : Run α} {f : α → Run β} :
    K α r → (∀ a, CanGive r a → K β (f a)) → K β (r >>= f)
  newNumber : K Nat newNumber
  callHelper (h : Helper) (args : List Item) : K Item (callHelper h args)

/-- Such a property that searches for some ways have, too. -/
class Seeking (W : Ways) (K : RunProperty) : Prop extends Composed K where
  lookUp (s : Scope) {needed : Bool} {w : Way} : W needed w → K Item (lookUp s needed w)

/-- A run has a property, and whatever it gives has another one. -/
structure Has (K : RunProperty) {α : Type} (r : Run α) (P : α → Prop) : Prop where
  run : K α r
  gives : ∀ a, CanGive r a → P a

theorem CanGive.of_bind {α β : Type} {r : Run α} {f : α → Run β} {b : β}
    (h : CanGive (r >>= f) b) : ∃ a, CanGive r a ∧ CanGive (f a) b := by
  obtain ⟨p, q, hrun⟩ := h
  change ExceptT.bindCont f (r p).1 (r p).2 = _ at hrun
  rcases hfirst : r p with ⟨e | a, m⟩
  · rw [hfirst] at hrun
    cases hrun
  · rw [hfirst] at hrun
    exact ⟨a, ⟨p, m, hfirst⟩, m, q, hrun⟩

variable {W : Ways} {K : RunProperty}

namespace Has

variable {α β : Type} {r : Run α} {P : α → Prop} {Q : β → Prop}

section Composed

variable [Composed K]

theorem pure {a : α} (h : P a) : Has K (pure a) P where
  run := Composed.pure a
  gives := by
    rintro _ ⟨p, q, ⟨⟩⟩
    exact h

theorem throw (f : RunFault) : Has K (throw f : Run α) P where
  run := Composed.throw f
  gives := by
    rintro _ ⟨p, q, ⟨⟩⟩

theorem bind {f : α → Run β} (hr : Has K r P) (hf : ∀ a, P a → Has K (f a) Q) :
    Has K (r >>= f) Q where
  run := Composed.bind hr.run fun a ha => (hf a (hr.gives a ha)).run
  gives b hb := by
    obtain ⟨a, ha, hb⟩ := hb.of_bind
    exact (hf a (hr.gives a ha)).gives b hb

theorem newNumber : Has K newNumber fun _ => True := ⟨Composed.newNumber, fun _ _ => trivial⟩

theorem callHelper {h : Helper} {args : List Item} (hargs : ∀ i ∈ args, i.Within W) :
    Has K (callHelper h args) (Item.Within W) where
  run := Composed.callHelper h args
  gives := by
    rintro i ⟨p, q, hrun⟩
    rw [callHelper_eq] at hrun
    cases happly : h.apply args p.made with
    | error e =>
        rw [happly] at hrun
        cases hrun
    | ok r =>
        rw [happly] at hrun
        cases hrun
        exact h.apply_within hargs p.made r happly

/-- A run that breaks off at once, whatever would come next. -/
theorem broken (f : RunFault) (g : α → Run β) : Has K ((MonadExcept.throw f : Run α) >>= g) Q :=
  throw f

theorem ofShape {x : Except ShapeFault α} (h : ∀ a, x = .ok a → P a) : Has K (ofShape x) P := by
  cases x with
  | ok a => exact pure (h a rfl)
  | error e => exact throw _

/-- Whether there is a value at all is all that is asked of it. -/
theorem shaped (x : Except ShapeFault α) : Has K (Template.ofShape x) fun _ => True :=
  ofShape fun _ _ => trivial

theorem mapM {f : β → Run α} {bs : List β} (hf : ∀ b ∈ bs, Has K (f b) P) :
    Has K (bs.mapM f) fun as => ∀ a ∈ as, P a := by
  induction bs with
  | nil => exact pure nofun
  | cons b bs ih =>
      rw [List.forall_mem_cons] at hf
      rw [List.mapM_cons]
      exact bind hf.1 fun a ha => bind (ih hf.2) fun as has =>
        pure (List.forall_mem_cons.2 ⟨ha, has⟩)

theorem foldlM {f : α → β → Run α} {bs : List β} {a : α}
    (hf : ∀ a, P a → ∀ b ∈ bs, Has K (f a b) P) (ha : P a) : Has K (bs.foldlM f a) P := by
  induction bs generalizing a with
  | nil => exact pure ha
  | cons b bs ih =>
      rw [List.foldlM_cons]
      exact bind (hf a ha b List.mem_cons_self) fun a ha =>
        ih (fun a ha c hc => hf a ha c (List.mem_cons_of_mem b hc)) ha

end Composed

theorem ite {c : Prop} [Decidable c] {r' : Run α} (hr : Has K r P) (hr' : Has K r' P) :
    Has K (if c then r else r') P := by
  split
  · exact hr
  · exact hr'

end Has

/-! ## Searches -/

section Searches

variable {i : Item} {names : List String} {strict : Bool}

theorem CanGive.strictField {name : String} {place : Place} {j : Item}
    (h : CanGive (strictField i name place) j) : j = (i.own? name).getD .absent := by
  obtain ⟨p, q, hrun⟩ := h
  unfold Template.strictField at hrun
  split at hrun
  · cases hrun
  · split at hrun
    · cases hrun
      rfl
    · cases hparent : i.display <;> rw [hparent] at hrun <;> cases hrun

theorem CanGive.ofShape {α : Type} {x : Except ShapeFault α} {a : α}
    (h : CanGive (ofShape x) a) : x = .ok a := by
  obtain ⟨p, q, hrun⟩ := h
  cases x <;> cases hrun
  rfl

/-- What is found at the end of a way leads nowhere else than where the way starts. -/
theorem CanGive.follow_within {place : Place} {j : Item} (hi : i.Within W)
    (h : CanGive (follow strict place i names) j) : j.Within W := by
  induction names generalizing i with
  | nil =>
      obtain ⟨p, q, ⟨⟩⟩ := h
      exact hi
  | cons name names ih =>
      cases names with
      | nil =>
          cases strict with
          | true =>
              rw [CanGive.strictField (h : CanGive (Template.strictField i name place) j)]
              exact hi.getOwn name
          | false =>
              exact hi.field (CanGive.ofShape (h : CanGive (Template.ofShape (i.field name)) j))
      | cons next rest =>
          obtain ⟨k, hk, hrest⟩ := CanGive.of_bind
            (h : CanGive (Template.ofShape (i.field name) >>= fun k =>
              follow strict place k (next :: rest)) j)
          exact ih (hi.field hk.ofShape) hrest

theorem Has.lookUp [Seeking W K] {s : Scope} {needed : Bool} {w : Way} (hs : s.Within W)
    (hw : W needed w) : Has K (lookUp s needed w) (Item.Within W) where
  run := Seeking.lookUp s hw
  gives j hj := by
    obtain ⟨-, -, hj⟩ := CanGive.of_bind hj
    exact CanGive.follow_within (hs.startOf w.start) hj

end Searches

/-! ## Parts without calls -/

/-- What has been joined leads to such plans only. -/
structure Joined.Within (W : Ways) (j : Joined) : Prop where
  settled : ∀ i ∈ j.settled, i.Within W
  since : ∀ i ∈ j.since, i.Within W

section Silent

variable [Composed K] {s : Scope}

theorem handedOn_has (hs : s.Within W) : Has K s.handedOn (Item.Within W) := by
  rw [Scope.handedOn]
  split
  · exact .bind .newNumber fun _ _ => .pure (.list hs.params)
  · exact .pure (.data _ _)

theorem newFrame_has {around : Item} {own : List (String × Item)} (haround : around.Within W)
    (hown : ∀ f ∈ own, f.2.Within W) : Has K (newFrame around own) (Item.Within W) := by
  refine .bind .newNumber fun _ _ => .pure (.record (putAll_within (fun f hf => ?_) hown))
  rcases Fields.mem_put hf with rfl | hf
  · exact haround
  · exact putAll_within (List.forall_mem_nil _) haround.parts f hf

theorem extended_has {context : Item} {named : List (String × Item)} (hcontext : context.Within W)
    (hnamed : ∀ f ∈ named, f.2.Within W) : Has K (extended context named) (Item.Within W) :=
  .bind .newNumber fun _ _ => .pure (.record (putAll_within
    (putAll_within (List.forall_mem_nil _) fun f hf => hcontext.parts f (List.mem_filter.1 hf).1)
    hnamed))

theorem deepen_has {context : Item} {depths : Option (List Item)} (hcontext : context.Within W)
    (hdepths : ∀ is ∈ depths, ∀ i ∈ is, i.Within W) :
    Has K (deepen context depths) fun depths => ∀ is ∈ depths, ∀ i ∈ is, i.Within W := by
  cases depths with
  | none => exact .pure nofun
  | some is =>
      have his := hdepths is rfl
      refine .bind (.shaped _) fun _ _ => ?_
      split
      · exact .pure hdepths
      · refine .pure ?_
        rintro _ ⟨⟩
        exact List.forall_mem_cons.2 ⟨hcontext, his⟩

theorem joinOnto_has {start : Option Item} {i : Item} (hi : i.Within W) :
    Has K (joinOnto start i) (Item.Within W) := by
  cases start with
  | none => exact .pure hi
  | some a => exact .ofShape fun _ h => .plus h

theorem all_has {j : Joined} (hj : j.Within W) : Has K j.all (Item.Within W) := by
  rw [Joined.all]
  split
  · next i hsince => exact joinOnto_has (hj.since i hsince)
  · cases hsettled : j.settled with
    | none => exact .pure (.data _ _)
    | some i => exact .pure (hj.settled i hsettled)

/-- The partials that a plan sees are known by name. -/
theorem known_within (hs : s.Within W) {name : String} {f : Function}
    (h : (match s.partials.lookup name with
      | some (some c) => some (Function.program c)
      | _ => none) = some f) : f.Within W := by
  split at h
  · next c hlookup =>
      cases h
      exact .program (hs.partials (name, some c) (Fields.mem_of_get? hlookup) c rfl)
  · cases h

theorem findPartial_has (hs : s.Within W) {name : String ⊕ Item}
    (hname : ∀ i, name = .inr i → i.Within W) :
    Has K (findPartial s name) fun found => ∀ f ∈ found.2, f.Within W := by
  rcases name with name | i
  · refine .pure fun f hf => ?_
    rcases Option.or_eq_some_iff.1 hf with hf | ⟨-, hf⟩
    · exact known_within hs hf
    · split at hf
      · split at hf
        · next g _ hown =>
            cases hf
            cases hs.frame.own? hown with
            | function h => exact h
        · cases hf
      · cases hf
  · cases hname i rfl with
    | @function f _ h =>
        refine .pure ?_
        rintro _ ⟨⟩
        exact h
    | _ =>
        rw [findPartial]
        · dsimp only
          split
          · exact .bind (.shaped _) fun _ _ => .pure fun f hf => known_within hs hf
          · exact .bind (P := fun _ => True) (.pure trivial) fun _ _ =>
              .pure fun f hf => known_within hs hf
        · exact nofun

theorem callRecord_has (hs : s.Within W) {site : CallSite} {named : List (String × Item)}
    {branches : Branches} (hnamed : ∀ f ∈ named, f.2.Within W) (hbranches : branches.Within W) :
    Has K (callRecord s site named branches) (Item.Within W) := by
  rw [callRecord]
  refine .bind .newNumber fun _ _ => ?_
  extract_lets hash span withPrograms
  have hwithPrograms (programs : List (String × Item)) (hprograms : ∀ f ∈ programs, f.2.Within W) :
      Has K (withPrograms programs) (Item.Within W) := by
    dsimp only [withPrograms]
    refine .bind (handedOn_has hs) fun params hparams => .bind .newNumber fun _ _ =>
      .bind .newNumber fun _ _ => .pure (.record ?_)
    simp only [List.forall_mem_append, List.forall_mem_cons]
    refine ⟨⟨⟨⟨⟨.data _ _, .record hnamed, nofun⟩, hprograms⟩, hs.frame, nofun⟩, ?_⟩,
      .data _ _, nofun⟩
    split
    · exact List.forall_mem_singleton.2 hparams
    · exact nofun
  cases hbranches with
  | none => exact .bind (.pure (List.forall_mem_nil _)) hwithPrograms
  | @some program inverse hprogram hinverse =>
      refine .bind .newNumber fun m _ => .bind .newNumber fun n _ => ?_
      have hprograms : ∀ f ∈ [("fn", Item.function (branchFunction program) m),
          ("inverse", .function (branchFunction inverse) n)], f.2.Within W :=
        List.forall_mem_cons.2 ⟨.function (branchFunction_within hprogram),
          List.forall_mem_singleton.2 (.function (branchFunction_within hinverse))⟩
      exact .bind (.pure hprograms) hwithPrograms

end Silent

/-! ## Templates -/

theorem go_within {steps : List Step} (h : ∀ st ∈ steps, st.Within W) (passing : Bool) :
    ∀ t ∈ Plan.turns.go passing steps, t.step.Within W := by
  induction steps generalizing passing with
  | nil => exact nofun
  | cons st steps ih =>
      rw [List.forall_mem_cons] at h
      rw [Plan.turns.go]
      split
      · exact ih h.2 _
      · exact List.forall_mem_cons.2 ⟨h.1, ih h.2 _⟩

/-- The parts of a run have a property, if they may go to a depth. -/
structure Throughout (W : Ways) (K : RunProperty) (n : Nat) : Prop where
  operand {s : Scope} {o : Operand} : s.Within W → o.Within W →
    Has K (evalOperand n s o) (Item.Within W)
  named {s : Scope} {ns : List (String × Operand)} : s.Within W → (∀ m ∈ ns, m.2.Within W) →
    Has K (evalNamed n s ns) fun fs => ∀ f ∈ fs, f.2.Within W
  tag {s : Scope} {t : Tag} {branches : Run Branches} : s.Within W → t.Within W →
    Has K branches (Branches.Within W) → Has K (evalTag n s t branches) (Item.Within W)
  value {s : Scope} {i : Item} : s.Within W → i.Within W → Has K (callValue n s i) (Item.Within W)
  function {partials : List (String × Option Closure)} {f : Function} {args : List Item} :
    (∀ m ∈ partials, ∀ c ∈ m.2, c.Within W) → f.Within W → (∀ i ∈ args, i.Within W) →
    Has K (callFunction n partials f args) (Item.Within W)
  control {s : Scope} {c : Control} {args : List Item} {named : List (String × Item)}
    {branches : Branches} : s.Within W → (∀ i ∈ args, i.Within W) → branches.Within W →
    Has K (evalControl n s c args named branches) (Item.Within W)
  branch {s : Scope} {holds : Bool} {context : Item} {branches : Branches} : s.Within W →
    context.Within W → branches.Within W →
    Has K (runBranch n s holds context branches) (Item.Within W)
  each {s : Scope} {i : Item} {branches : Branches} : s.Within W → i.Within W →
    branches.Within W → Has K (eachItem n s i branches) (Item.Within W)
  blockFor {s : Scope} {i : Item} {branches : Branches} : s.Within W → i.Within W →
    branches.Within W → Has K (runBlockFor n s i branches) (Item.Within W)
  closure {s : Scope} {p : Plan} : s.Within W → p.Within W →
    Has K (close n s p) (Closure.Within W)
  optional {s : Scope} {p : Option Plan} : s.Within W → (∀ q ∈ p, q.Within W) →
    Has K (closeOptional n s p) fun c => ∀ x ∈ c, x.Within W
  defined {s : Scope} {p : Plan} : s.Within W → p.Within W →
    Has K (definitions n s p) fun partials => ∀ m ∈ partials, ∀ c ∈ m.2, c.Within W
  invoked {partials : List (String × Option Closure)} {c : Closure} {context : Item}
    {frame : Option Item} {param : Item} : (∀ m ∈ partials, ∀ c ∈ m.2, c.Within W) →
    c.Within W → context.Within W → (∀ i ∈ frame, i.Within W) → param.Within W →
    Has K (invoke n partials c context frame param) (Item.Within W)
  partialCall {s : Scope} {name : PartialName} {context : Option Operand}
    {named : Option (List (String × Operand))} {block : Option Plan} {indent : String} :
    s.Within W → (∀ o, name = .computed o → o.Within W) → (∀ o ∈ context, o.Within W) →
    (∀ ns ∈ named, ∀ m ∈ ns, m.2.Within W) → (∀ p ∈ block, p.Within W) →
    Has K (runPartial n s name context named block indent) (Item.Within W)
  step {s : Scope} {st : Step} : s.Within W → st.Within W → Has K (runStep n s st) (Item.Within W)
  plan {s : Scope} {p : Plan} : s.Within W → p.Within W → Has K (runPlan n s p) (Item.Within W)

namespace Throughout

variable [Seeking W K] {n : Nat} {s : Scope} {i : Item} {branches : Branches}

theorem evalOperand_succ (ih : Throughout W K n) {o : Operand} (hs : s.Within W)
    (ho : o.Within W) : Has K (evalOperand (n + 1) s o) (Item.Within W) := by
  cases ho with
  | literal l => exact .pure (.data _ _)
  | way hw => exact .lookUp hs hw
  | tag ht => exact ih.tag hs ht (.pure .none)
  | refused => exact .throw _

theorem evalNamed_succ (ih : Throughout W K n) {ns : List (String × Operand)} (hs : s.Within W)
    (hns : ∀ m ∈ ns, m.2.Within W) :
    Has K (evalNamed (n + 1) s ns) fun fs => ∀ f ∈ fs, f.2.Within W := by
  rw [evalNamed]
  exact .mapM (P := fun f : String × Item => f.2.Within W) fun m hm =>
    .bind (ih.operand hs (hns m hm)) fun _ hi => .pure hi

theorem evalTag_succ (ih : Throughout W K n) {t : Tag} {branches : Run Branches}
    (hs : s.Within W) (ht : t.Within W) (hbranches : Has K branches (Branches.Within W)) :
    Has K (evalTag (n + 1) s t branches) (Item.Within W) := by
  cases ht with
  | value hw => exact .bind (.lookUp hs hw) fun i hi => ih.value hs hi
  | single hw =>
      refine .bind (.lookUp hs hw) fun i hi => .bind hbranches fun bs hbs => ?_
      cases hi with
      | function hf =>
          exact .bind (callRecord_has hs nofun hbs) fun r hr =>
            ih.function hs.partials hf (List.forall_mem_singleton.2 hr)
      | data v o => exact .pure (.data v o)
      | list h => exact .pure (.list h)
      | record h => exact .pure (.record h)
  | @call target args named htarget hargs hnamed =>
      have hargs : Has K (args.mapM (evalOperand n s)) fun is => ∀ i ∈ is, i.Within W :=
        .mapM fun o ho => ih.operand hs (hargs o ho)
      have hnamed := ih.named hs hnamed
      cases target with
      | helper helper =>
          exact .bind hargs fun is his => .bind hnamed fun _ _ => .bind hbranches fun _ _ =>
            .callHelper his
      | control c =>
          cases c with
          | reserved => exact .throw _
          | _ =>
              exact .bind hargs fun is his => .bind hnamed fun _ _ => .bind hbranches fun bs hbs =>
                ih.control hs his hbs
      | found w site =>
          refine .bind (.lookUp hs (htarget w site rfl)) fun i hi => ?_
          cases hi with
          | function hf =>
              exact .bind hargs fun is his => .bind hnamed fun ns hns =>
                .bind hbranches fun bs hbs => .bind (callRecord_has hs hns hbs) fun r hr =>
                ih.function hs.partials hf
                  (List.forall_mem_append.2 ⟨his, List.forall_mem_singleton.2 hr⟩)
          | _ =>
              exact .ite (.broken _ _) <| .bind hargs fun _ _ => .bind hnamed fun _ _ =>
                .bind hbranches fun _ _ => .throw _

theorem callValue_succ (ih : Throughout W K n) (hs : s.Within W) (hi : i.Within W) :
    Has K (callValue (n + 1) s i) (Item.Within W) := by
  cases hi with
  | function hf => exact ih.function hs.partials hf nofun
  | data v o => exact .pure (.data v o)
  | list h => exact .pure (.list h)
  | record h => exact .pure (.record h)

theorem callFunction_succ (ih : Throughout W K n) {partials : List (String × Option Closure)}
    {f : Function} {args : List Item} (hpartials : ∀ m ∈ partials, ∀ c ∈ m.2, c.Within W)
    (hf : f.Within W) (hargs : ∀ i ∈ args, i.Within W) :
    Has K (callFunction (n + 1) partials f args) (Item.Within W) := by
  rw [callFunction.eq_def]
  dsimp -zeta only
  extract_lets context call
  have hcontext : context.Within W := getD_within hargs 0
  have hcall : call.Within W := by
    dsimp only [call]
    split
    · exact .record nofun
    · exact getD_within hargs 1
  cases hf with
  | empty => exact .pure (.data _ _)
  | program hc =>
      refine .bind (.ofShape fun _ h => hcall.field h) fun frame hframe =>
        .bind (.ofShape fun _ h => hcall.field h) fun param hparam =>
        ih.invoked hpartials hc hcontext ?_ hparam
      split
      · rintro _ ⟨⟩
        exact hframe
      · exact nofun
  | block hc houter =>
      refine .ite (.broken _ _) <| .bind (.ofShape fun _ h => hcall.field h) fun around haround =>
        .bind (.ofShape fun _ h => hcall.field h) fun param hparam =>
        .bind (newFrame_has haround (List.forall_mem_singleton.2 houter)) fun frame hframe =>
        ih.invoked hpartials hc hcontext ?_ hparam
      rintro _ ⟨⟩
      exact hframe

theorem evalControl_succ (ih : Throughout W K n) {c : Control} {args : List Item}
    {named : List (String × Item)} (hs : s.Within W) (hargs : ∀ i ∈ args, i.Within W)
    (hbranches : branches.Within W) :
    Has K (evalControl (n + 1) s c args named branches) (Item.Within W) := by
  have hwith {i : Item} (hi : i.Within W) :
      Has K (evalControl (n + 1) s .within [i] named branches) (Item.Within W) := by
    refine .bind (ih.value hs hi) fun i hi => .ite (ih.branch hs hs.receiver hbranches) ?_
    cases hbranches with
    | none => exact .throw _
    | @some program inverse hprogram _ =>
        cases program with
        | none => exact .pure (.data _ _)
        | some p =>
            exact .bind .newNumber fun _ _ => ih.invoked hs.partials (hprogram p rfl) hi nofun
              (.list (List.forall_mem_singleton.2 hi))
  cases c with
  | each =>
      match args with
      | [] => exact .throw _
      | [i] =>
        exact .bind (ih.value hs (hargs i List.mem_cons_self)) fun i hi =>
          .ite (ih.branch hs hs.receiver hbranches) (ih.each hs hi hbranches)
      | _ :: _ :: _ => exact .throw _
  | ifTrue =>
      match args with
      | [i] =>
        exact .bind (ih.value hs (hargs i List.mem_cons_self)) fun i _ =>
          ih.branch hs hs.receiver hbranches
      | [] | _ :: _ :: _ => exact .throw _
  | unlessTrue =>
      match args with
      | [i] =>
        exact .bind (ih.value hs (hargs i List.mem_cons_self)) fun i _ =>
          ih.branch hs hs.receiver hbranches
      | [] | _ :: _ :: _ => exact .throw _
  | within =>
      match args with
      | [i] => exact hwith (hargs i List.mem_cons_self)
      | [] | _ :: _ :: _ => exact .throw _
  | lookup =>
      match args with
      | [] => exact .throw _
      | i :: rest =>
        have hi := hargs i List.mem_cons_self
        refine .ite (.pure hi) ?_
        match rest with
        | [key] => exact .bind (.shaped _) fun _ _ => .pure (hi.getOwn _)
        | [] | _ :: _ :: _ => exact .throw _
  | log => cases args <;> exact .pure (.data _ _)
  | reserved => cases args <;> exact .throw _

theorem runBranch_succ (ih : Throughout W K n) {holds : Bool} {context : Item}
    (hs : s.Within W) (hcontext : context.Within W) (hbranches : branches.Within W) :
    Has K (runBranch (n + 1) s holds context branches) (Item.Within W) := by
  cases hbranches with
  | none => exact .throw _
  | some hprogram hinverse =>
      rw [runBranch]
      split
      · next c hc =>
          refine ih.invoked hs.partials ?_ hcontext nofun (.data _ _)
          split at hc
          · exact hprogram c hc
          · exact hinverse c hc
      · exact .pure (.data _ _)

theorem eachItem_succ (ih : Throughout W K n) (hs : s.Within W) (hi : i.Within W)
    (hbranches : branches.Within W) :
    Has K (eachItem (n + 1) s i branches) (Item.Within W) := by
  cases hbranches with
  | none => exact .throw _
  | @some program inverse hprogram _ =>
      cases program with
      | none => exact .pure (.data _ _)
      | some c =>
          rw [eachItem]
          refine .bind (.mapM (P := fun _ => True) ?_) fun texts _ => .pure (.data _ _)
          rintro ⟨⟨item, key⟩, k⟩ hx
          have hitem : item.Within W := hi.iteration (item, key) (List.fst_mem_of_mem_zipIdx hx)
          have hown : ∀ f ∈ [("key", Item.plain key), ("index", .plain (.int k)),
              ("first", .plain (.bool (k = 0))),
              ("last", .plain (.bool (k + 1 = (iteration i).length)))], f.2.Within W := by
            simp only [List.forall_mem_cons]
            exact ⟨.data _ _, .data _ _, .data _ _, .data _ _, nofun⟩
          refine .bind (newFrame_has hs.frame hown) fun frame hframe => .bind .newNumber fun _ _ =>
            .bind (ih.invoked hs.partials (hprogram c rfl) hitem ?_
              (.list (List.forall_mem_cons.2 ⟨hitem,
                List.forall_mem_singleton.2 (.data _ _)⟩))) fun _ _ => .shaped _
          rintro _ ⟨⟩
          exact hframe

theorem runBlockFor_succ (ih : Throughout W K n) (hs : s.Within W) (hi : i.Within W)
    (hbranches : branches.Within W) :
    Has K (runBlockFor (n + 1) s i branches) (Item.Within W) := by
  rw [runBlockFor.eq_def]
  dsimp only
  split
  · exact ih.branch hs hs.context hbranches
  · split
    · split
      · exact ih.branch hs hs.context hbranches
      · exact ih.each hs hi hbranches
    · split
      · exact ih.branch hs hs.context hbranches
      · cases hbranches with
        | some hprogram _ =>
            refine .bind (handedOn_has hs) fun param hparam =>
              ih.invoked hs.partials (hprogram _ rfl) hi ?_ hparam
            rintro _ ⟨⟩
            exact hs.frame
      · exact .pure (.data _ _)

theorem close_succ (ih : Throughout W K n) {p : Plan} (hs : s.Within W) (hp : p.Within W) :
    Has K (close (n + 1) s p) (Closure.Within W) :=
  .bind (ih.defined hs hp) fun _ hdefined =>
    .pure (.mk hp hs.params hs.depths hs.frame hdefined)

theorem closeOptional_succ (ih : Throughout W K n) {p : Option Plan} (hs : s.Within W)
    (hp : ∀ q ∈ p, q.Within W) :
    Has K (closeOptional (n + 1) s p) fun c => ∀ x ∈ c, x.Within W := by
  cases p with
  | none => exact .pure nofun
  | some p =>
      refine .bind (ih.closure hs (hp p rfl)) fun c hc => .pure ?_
      rintro _ ⟨⟩
      exact hc

theorem definitions_succ (ih : Throughout W K n) {p : Plan} (hs : s.Within W)
    (hp : p.Within W) : Has K (definitions (n + 1) s p) fun partials =>
      ∀ m ∈ partials, ∀ c ∈ m.2, c.Within W := by
  rw [definitions]
  refine .foldlM (fun acc hacc st hst => ?_) nofun
  cases hp.steps st hst with
  | definition hargs hnamed hblock =>
      exact .ite (.broken _ _) <| .bind (ih.named hs.inner hnamed) fun _ _ =>
        .bind (ih.optional hs.inner hblock) fun _ hc =>
        .bind (.mapM fun o ho => ih.operand hs.inner (hargs o ho)) fun _ _ =>
        .bind (.shaped _) fun _ _ => .pure (List.forall_mem_cons.2 ⟨hc, hacc⟩)
  | _ => exact .pure hacc

theorem invoke_succ (ih : Throughout W K n) {partials : List (String × Option Closure)}
    {c : Closure} {context : Item} {frame : Option Item} {param : Item}
    (hpartials : ∀ m ∈ partials, ∀ c ∈ m.2, c.Within W) (hc : c.Within W)
    (hcontext : context.Within W) (hframe : ∀ i ∈ frame, i.Within W) (hparam : param.Within W) :
    Has K (invoke (n + 1) partials c context frame param) (Item.Within W) := by
  cases hc with
  | mk hplan hparams hdepths hown hdefined =>
      refine .bind (deepen_has hcontext hdepths) fun depths hdepths => ih.plan ⟨hcontext, ?_, ?_,
        List.forall_mem_cons.2 ⟨hparam, hparams⟩,
        List.forall_mem_append.2 ⟨hdefined, hpartials⟩⟩ hplan
      · dsimp only
        split
        · exact hdepths
        · exact nofun
      · cases frame with
        | none => exact hown
        | some i => exact hframe i rfl

theorem runPartial_succ (ih : Throughout W K n) {name : PartialName} {context : Option Operand}
    {named : Option (List (String × Operand))} {block : Option Plan} {indent : String}
    (hs : s.Within W) (hname : ∀ o, name = .computed o → o.Within W)
    (hcontext : ∀ o ∈ context, o.Within W) (hnamed : ∀ ns ∈ named, ∀ m ∈ ns, m.2.Within W)
    (hblock : ∀ p ∈ block, p.Within W) :
    Has K (runPartial (n + 1) s name context named block indent) (Item.Within W) := by
  rw [runPartial.eq_def]
  dsimp -zeta only
  -- the parts of a call, from the last to the first: each is run with what comes before it
  extract_lets outer withName
  have houter : outer.Within W := hs.frame.getOwn _
  have hwithName (x : String ⊕ Item) (hx : ∀ i, x = .inr i → i.Within W) :
      Has K (withName x) (Item.Within W) := by
    dsimp -zeta only [withName]
    extract_lets withNamed withContext
    have hwithNamed (x : Item) (hcontext : x.Within W) : Has K (withNamed x) (Item.Within W) := by
      refine .bind (ih.optional hs hblock) fun c hc => .bind (findPartial_has hs hx)
        fun found hfound => ?_
      extract_lets withBlock
      have hwithBlock (own : Option (Function × Nat)) (hown : ∀ o ∈ own, o.1.Within W) :
          Has K (withBlock own) (Item.Within W) := by
        dsimp -zeta only [withBlock]
        extract_lets withFrame
        have hwithFrame (frame : Item) (hframe : frame.Within W) :
            Has K (withFrame frame) (Item.Within W) := by
          dsimp only [withFrame]
          split
          · exact .throw _
          · next f hf =>
              have hf : f.Within W := by
                rcases Option.or_eq_some_iff.1 hf with hf | ⟨-, hf⟩
                · exact hfound f hf
                · obtain ⟨o, ho, rfl⟩ := Option.map_eq_some_iff.1 hf
                  exact hown o ho
              refine .bind (handedOn_has hs) fun params hparams => .bind .newNumber fun _ _ => ?_
              have hcall : ∀ f ∈ [("data", frame), ("blockParams", params)], f.2.Within W :=
                List.forall_mem_cons.2 ⟨hframe, List.forall_mem_singleton.2 hparams⟩
              refine .bind (ih.function hs.partials hf (List.forall_mem_cons.2 ⟨hcontext,
                List.forall_mem_singleton.2 (.record hcall)⟩)) fun i hi => .ite (.pure hi) ?_
              split
              · exact .pure (.data _ _)
              · exact .throw _
        split
        · next f k =>
            exact .bind (newFrame_has hs.frame (List.forall_mem_singleton.2
              (.function (hown (f, k) rfl)))) hwithFrame
        · exact .bind (.pure hs.frame) hwithFrame
      split
      · next c =>
          refine .bind .newNumber fun k _ => .bind
            (.pure (P := fun own => ∀ o ∈ own, o.1.Within W) ?_) hwithBlock
          rintro _ ⟨⟩
          exact .block (hc c rfl) houter
      · exact .bind (.pure (P := fun own => ∀ o ∈ own, o.1.Within W) nofun) hwithBlock
    have hwithContext (x : Item) (hcontext : x.Within W) :
        Has K (withContext x) (Item.Within W) := by
      dsimp -zeta only [withContext]
      split
      · next ns =>
          exact .bind (ih.named hs (hnamed ns rfl)) fun _ hfs =>
            .bind (extended_has hcontext hfs) hwithNamed
      · exact .bind (.pure hcontext) hwithNamed
    split
    · next o => exact .bind (ih.operand hs (hcontext o rfl)) hwithContext
    · exact .bind (.pure hs.context) hwithContext
  cases name with
  | written t =>
      exact .bind (.pure (P := fun x => ∀ i, x = .inr i → i.Within W) nofun) hwithName
  | computed o =>
      refine .bind (ih.operand hs (hname o rfl)) fun i hi => .bind
        (.pure (P := fun x => ∀ i, x = .inr i → i.Within W) ?_) hwithName
      rintro _ ⟨⟩
      exact hi

theorem runStep_succ (ih : Throughout W K n) {st : Step} (hs : s.Within W)
    (hst : st.Within W) : Has K (runStep (n + 1) s st) (Item.Within W) := by
  have hbranches {program inverse : Option Plan} (hprogram : ∀ p ∈ program, p.Within W)
      (hinverse : ∀ p ∈ inverse, p.Within W) : Has K (do
        let program ← closeOptional n s program
        let inverse ← closeOptional n s inverse
        pure (Branches.some program inverse)) (Branches.Within W) :=
    .bind (ih.optional hs hprogram) fun _ hp => .bind (ih.optional hs hinverse) fun _ hi =>
      .pure (.some hp hi)
  cases hst with
  | text t => exact .pure (.data _ _)
  | tag ht => exact ih.tag hs ht (.pure .none)
  | block ht hprogram hinverse =>
      have hbs := hbranches hprogram hinverse
      cases ht with
      | value hw =>
          exact .bind (ih.tag hs (.value hw) (.pure .none)) fun i hi => .bind hbs fun bs hbs =>
            ih.blockFor hs hi hbs
      | single hw =>
          refine .bind (.lookUp hs hw) fun i hi => .bind hbs fun bs hbs => ?_
          cases hi with
          | function hf =>
              exact .bind (callRecord_has hs nofun hbs) fun r hr =>
                .bind (ih.function hs.partials hf (List.forall_mem_singleton.2 hr)) fun i hi =>
                ih.blockFor hs hi hbs
          | data v o => exact .bind (.pure (.data v o)) fun i hi => ih.blockFor hs hi hbs
          | list h => exact .bind (.pure (.list h)) fun i hi => ih.blockFor hs hi hbs
          | record h => exact .bind (.pure (.record h)) fun i hi => ih.blockFor hs hi hbs
      | call htarget hargs hnamed => exact ih.tag hs (.call htarget hargs hnamed) hbs
  | partialCall hname hcontext hnamed hblock =>
      exact ih.partialCall hs hname hcontext hnamed hblock
  | definition => exact .pure (.data _ _)

theorem runPlan_succ (ih : Throughout W K n) {p : Plan} (hs : s.Within W) (hp : p.Within W) :
    Has K (runPlan (n + 1) s p) (Item.Within W) := by
  have hturns : ∀ t ∈ p.turns, t.step.Within W := go_within hp.steps p.sharing
  have hstep {t : Turn} (ht : t ∈ p.turns) :
      Has K (runStep n { s with passing := t.passing } t.step) (Item.Within W) :=
    ih.step ⟨hs.context, hs.depths, hs.frame, hs.params, hs.partials⟩ (hturns t ht)
  rw [runPlan]
  refine .ite ?_ (.bind (.foldlM (P := Joined.Within W) (fun j hj t ht => .ite ?_ ?_)
    ⟨nofun, nofun⟩) fun j hj => all_has hj)
  · split
    · next t _ hfirst =>
        exact .bind (hstep (hfirst ▸ List.mem_cons_self)) fun i hi => .pure hi.orEmpty
    · exact .pure (.data _ _)
  · refine .bind (all_has hj) fun before hbefore => .bind (hstep ht) fun i hi => ?_
    have hjoined {i : Item} (hi : i.Within W) : Joined.Within W ⟨some i, none⟩ :=
      ⟨by rintro _ ⟨⟩; exact hi, nofun⟩
    exact .ite (.bind (.pure hbefore) fun _ h => .pure (hjoined h))
      (.bind (joinOnto_has hi) fun _ h => .pure (hjoined h))
  · refine .bind (hstep ht) fun i hi => .ite ?_ ?_
    · refine .bind (joinOnto_has hi.orEmpty) fun k hk => .pure ⟨hj.settled, ?_⟩
      rintro _ ⟨⟩
      exact hk
    · refine .bind (joinOnto_has hi.orEmpty) fun k hk => .pure ⟨?_, hj.since⟩
      rintro _ ⟨⟩
      exact hk

end Throughout

/-- All parts of a run have a property of runs, however deep they go. -/
theorem throughout [Seeking W K] (n : Nat) : Throughout W K n := by
  induction n with
  | zero => constructor <;> intros <;> exact .throw _
  | succ n ih =>
      exact ⟨ih.evalOperand_succ, ih.evalNamed_succ, ih.evalTag_succ, ih.callValue_succ,
        ih.callFunction_succ, ih.evalControl_succ, ih.runBranch_succ, ih.eachItem_succ,
        ih.runBlockFor_succ, ih.close_succ, ih.closeOptional_succ, ih.definitions_succ,
        ih.invoke_succ, ih.runPartial_succ, ih.runStep_succ, ih.runPlan_succ⟩

/-- A template as a whole has a property of runs, if the searches for its ways have it. -/
theorem runTemplate_has (program : Program) [Seeking program.Asks K] (context : Value) :
    K String (runTemplate program context) := by
  have hroot : (Scope.rootContext context).Within program.Asks := .data _ _
  have hframe : (Scope.rootFrame (Scope.rootContext context)).Within program.Asks :=
    .record (List.forall_mem_singleton.2 hroot)
  rw [runTemplate]
  split
  · exact (Has.throw (P := fun _ => True) _).run
  · next plan hplan =>
      have hwithin := Program.plan_within hplan
      refine (Has.bind ((throughout (K := K) runDepth).defined ⟨.data _ _, ?_, hframe,
        List.forall_mem_nil _, List.forall_mem_nil _⟩ hwithin) fun partials hpartials =>
        Has.bind ((throughout runDepth).plan ⟨hroot, ?_, hframe, List.forall_mem_nil _, hpartials⟩
          hwithin) fun _ _ => .shaped _).run
      · rintro _ ⟨⟩
        exact List.forall_mem_nil _
      · dsimp only
        split
        · rintro _ ⟨⟩
          exact List.forall_mem_singleton.2 hroot
        · exact nofun

end Template

end ProxyFleet
