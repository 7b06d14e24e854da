import ProxyFleet.Proofs.Template.Throughout

/-!
# What a rendering searches for

Wherever a template names a value, the value is searched for, and the search is remembered
(`Progress.searches`). Nothing catches a fault while a template runs. So one search at most can
fail, the latest, and what the rendering says then is what this search says (`Settles`).

Whether a missing name is a fault is a matter of where it stands (`Search.strict`). What is
written for its value, names a block or is called must be there. What is given to a call may be
missing, as long as the names before the last are there, and so may what is behind a block
parameter. Every search is for a path of the template and keeps to where the path stands
(`Seeks`).
-/

namespace ProxyFleet

namespace Template

/-! ## Single searches -/

/-- A value can be asked for a name: it is there, and if the name must be, it has the name or
belongs to those that are taken to have it. -/
def Item.Answers (strict : Bool) (i : Item) (name : String) : Prop :=
  if strict then i.isObject = true ∧ i.hasName name = true else i.isNothing = false

/-- The names before the last lead to a value that can be asked for the last one, each to a value
that the one before has of its own. -/
def Reaches (strict : Bool) : Item → List String → Prop
  | _, [] => True
  | i, [name] => i.Answers strict name
  | i, name :: names => ∃ j, i.own? name = some j ∧ Reaches strict j names

/-- A search leads to its end. -/
def Search.Resolved (q : Search) : Prop := Reaches q.strict q.start q.names

/-- What is said when names cannot be followed from a value: it is said of the first name that
cannot be. There may be nothing to ask for it. A last name that must be there may be asked of a
plain value, which has no names, or be missing; then it is told in what it is missing, unless that
cannot be put in words. -/
inductive Fails (strict : Bool) (place : Place) : Item → List String → RunFault → Prop
  | nothing {i : Item} {name : String} {rest : List String} (hnothing : i.isNothing = true)
      (honward : strict = true → rest ≠ []) :
      Fails strict place i (name :: rest) (.misshapen (.noFields name))
  | onward {i : Item} {name next : String} {rest : List String} {f : RunFault}
      (hsomething : i.isNothing = false)
      (h : Fails strict place ((i.own? name).getD .absent) (next :: rest) f) :
      Fails strict place i (name :: next :: rest) f
  | plain {i : Item} {name : String} (hstrict : strict = true) (htruthy : i.isTruthy = true)
      (hplain : i.isObject = false) : Fails strict place i [name] (.noNames name)
  | missing {i : Item} {name parent : String} (hstrict : strict = true)
      (hmissing : (i.isTruthy && i.hasName name) = false)
      (hasked : (i.isTruthy && !i.isObject) = false) (hparent : i.display = .ok parent) :
      Fails strict place i [name] (.undefinedName name parent place)
  | unspoken {i : Item} {name : String} {e : ShapeFault} (hstrict : strict = true)
      (hmissing : (i.isTruthy && i.hasName name) = false)
      (hasked : (i.isTruthy && !i.isObject) = false) (hparent : i.display = .error e) :
      Fails strict place i [name] (.misshapen e)

/-- What is said of a search that fails. -/
def Search.Says (q : Search) (f : RunFault) : Prop :=
  Fails q.strict q.way.place q.start q.names f

section Single

variable {i : Item} {name : String} {names : List String} {strict : Bool}

/-- Nothing can be asked of what is absent or null. -/
theorem Item.of_isNothing (h : i.isNothing = true) : i.isObject = false ∧ i.own? name = none := by
  cases i with
  | data v =>
      cases v with
      | absent | null => exact ⟨rfl, rfl⟩
      | _ => cases h
  | _ => cases h

theorem Item.isTruthy_of_isObject (h : i.isObject = true) : i.isTruthy = true := by
  cases i with
  | data v =>
      cases v with
      | arr | obj => rfl
      | _ => cases h
  | _ => rfl

theorem Item.not_answers_of_isNothing (h : i.isNothing = true) : ¬i.Answers strict name := by
  intro hanswers
  cases strict with
  | true =>
      have hnothing : i.isObject = false ∧ i.own? name = none := of_isNothing h
      cases hnothing.1.symm.trans hanswers.1
  | false => cases h.symm.trans hanswers

/-- Nothing is reached from where there is nothing. -/
theorem not_reaches_of_isNothing (h : i.isNothing = true) (hne : names ≠ []) :
    ¬Reaches strict i names := by
  match names, hne with
  | [name], _ => exact Item.not_answers_of_isNothing h
  | name :: _ :: _, _ =>
    rintro ⟨j, hj, -⟩
    rw [(Item.of_isNothing h).2] at hj
    cases hj

/-- A missing value on the way is as good as an absent one. -/
theorem reaches_cons (hne : names ≠ []) : Reaches strict i (name :: names) ↔
    Reaches strict ((i.own? name).getD .absent) names := by
  cases names with
  | nil => exact absurd rfl hne
  | cons next rest =>
      rw [Reaches]
      · cases i.own? name with
        | none => simpa using not_reaches_of_isNothing rfl hne
        | some j => simp
      · exact nofun

/-- A name that must be there is given if it is, and else it is said why it cannot be. -/
theorem strictField_cases (i : Item) (name : String) (place : Place) (p : Progress) :
    i.Answers true name ∧ (∃ j, strictField i name place p = (.ok j, p)) ∨
    ¬i.Answers true name ∧ ∃ f, strictField i name place p = (.error f, p) ∧
      Fails true place i [name] f := by
  rw [Item.Answers, if_pos rfl, strictField]
  split
  · next hmisused =>
      simp only [Bool.and_eq_true, Bool.not_eq_true'] at hmisused
      exact .inr ⟨by simp [hmisused.2], _, rfl, .plain rfl hmisused.1 hmisused.2⟩
  · next hused =>
      split
      · next hthere =>
          simp only [Bool.and_eq_true] at hthere
          refine .inl ⟨⟨?_, hthere.2⟩, _, rfl⟩
          simpa [hthere.1] using hused
      · next hmissing =>
          rw [Bool.not_eq_true] at hused hmissing
          refine .inr ⟨fun h => ?_, ?_⟩
          · rw [Item.isTruthy_of_isObject h.1, h.2] at hmissing
            cases hmissing
          · cases hparent : i.display with
            | ok parent => exact ⟨_, rfl, .missing rfl hmissing hused hparent⟩
            | error e => exact ⟨_, rfl, .unspoken rfl hmissing hused hparent⟩

theorem follow_nothing {next : String} {rest : List String} {p : Progress} {place : Place}
    (hnothing : i.isNothing = true) : follow strict place i (name :: next :: rest) p =
      (.error (.misshapen (.noFields name)), p) := by
  simp only [follow, Item.field, hnothing]
  rfl

theorem follow_onward {next : String} {rest : List String} {p : Progress} {place : Place}
    (hnothing : i.isNothing = false) : follow strict place i (name :: next :: rest) p =
      follow strict place ((i.own? name).getD .absent) (next :: rest) p := by
  simp only [follow, Item.field, hnothing]
  rfl

/-- Names are followed to their end, or it is said of one of them why it cannot be followed. -/
theorem follow_cases (strict : Bool) (place : Place) (i : Item) (names : List String)
    (p : Progress) :
    Reaches strict i names ∧ (∃ j, follow strict place i names p = (.ok j, p)) ∨
    ¬Reaches strict i names ∧ ∃ f, follow strict place i names p = (.error f, p) ∧
      Fails strict place i names f := by
  induction names generalizing i with
  | nil => exact .inl ⟨trivial, i, rfl⟩
  | cons name names ih =>
      cases names with
      | nil =>
          cases strict with
          | true => exact strictField_cases i name place p
          | false =>
              cases hnothing : i.isNothing with
              | true =>
                  refine .inr ⟨Item.not_answers_of_isNothing hnothing, _, ?_,
                    .nothing hnothing fun h => absurd h Bool.false_ne_true⟩
                  simp only [follow, Item.field, hnothing]
                  rfl
              | false =>
                  refine .inl ⟨hnothing, (i.own? name).getD .absent, ?_⟩
                  simp only [follow, Item.field, hnothing]
                  rfl
      | cons next rest =>
          cases hnothing : i.isNothing with
          | true =>
              exact .inr ⟨not_reaches_of_isNothing hnothing (List.cons_ne_nil name (next :: rest)), _,
                follow_nothing hnothing, .nothing hnothing fun _ => List.cons_ne_nil next rest⟩
          | false =>
              rw [reaches_cons (List.cons_ne_nil next rest), follow_onward hnothing]
              rcases ih ((i.own? name).getD .absent) with hleft | ⟨hreaches, f, hf, hfails⟩
              · exact .inl hleft
              · exact .inr ⟨hreaches, f, hf, .onward hnothing hfails⟩

theorem follow_snd (strict : Bool) (place : Place) (i : Item) (names : List String)
    (p : Progress) : (follow strict place i names p).2 = p := by
  obtain ⟨-, j, hj⟩ | ⟨-, f, hf, -⟩ := follow_cases strict place i names p
  · rw [hj]
  · rw [hf]

/-- The search for a way is remembered, whatever comes of it. -/
theorem lookUp_snd (s : Scope) (needed : Bool) (w : Way) (p : Progress) :
    (lookUp s needed w p).2 =
      { p with searches := ⟨w, needed, s.startOf w.start⟩ :: p.searches } :=
  follow_snd _ _ _ _ _

end Single

/-! ## Runs -/

/-- How a run can leave the searches there were before it: those it adds lead to their ends, unless
it breaks off with what is said of the latest one. -/
inductive Settles {α : Type} (before : List Search) : Except RunFault α → List Search → Prop
  | resolved {r : Except RunFault α} {new : List Search} (h : ∀ q ∈ new, q.Resolved) :
      Settles before r (new ++ before)
  | failed {q : Search} {f : RunFault} {new : List Search} (hq : ¬q.Resolved) (htells : q.Says f)
      (h : ∀ x ∈ new, x.Resolved) : Settles before (.error f) (q :: (new ++ before))

namespace Settles

variable {α β : Type} {before new after : List Search} {r : Except RunFault α} {f : RunFault}

/-- A fault goes on through what would come next. -/
theorem passed (h : Settles before (.error f : Except RunFault α) after) :
    Settles before (.error f : Except RunFault β) after := by
  cases h with
  | resolved h => exact .resolved h
  | failed hq htells h => exact .failed hq htells h

/-- What comes next adds to what has led to its end. -/
theorem onto (hnew : ∀ q ∈ new, q.Resolved) (h : Settles (new ++ before) r after) :
    Settles before r after := by
  cases h with
  | @resolved _ more h =>
      rw [← List.append_assoc]
      exact .resolved (List.forall_mem_append.2 ⟨h, hnew⟩)
  | @failed _ _ more hq htells h =>
      rw [← List.append_assoc]
      exact .failed hq htells (List.forall_mem_append.2 ⟨h, hnew⟩)

end Settles

/-- Whatever was brought about before, a run accounts for its searches. -/
def Accounts {α : Type} (r : Run α) : Prop :=
  ∀ p, Settles p.searches (r p).1 (r p).2.searches

namespace Accounts

variable {α β γ : Type} {r : Run α}

/-- A run that searches for nothing. -/
theorem of_eq (h : ∀ p, (r p).2.searches = p.searches) : Accounts r := by
  intro p
  rw [h p]
  exact @Settles.resolved _ _ _ [] nofun

theorem pure (a : α) : Accounts (pure a) := of_eq fun _ => rfl

theorem throw (f : RunFault) : Accounts (throw f : Run α) := of_eq fun _ => rfl

theorem bind {f : α → Run β} (hr : Accounts r) (hf : ∀ a, CanGive r a → Accounts (f a)) :
    Accounts (r >>= f) := by
  intro p
  change Settles _ (ExceptT.bindCont f (r p).1 (r p).2).1
    (ExceptT.bindCont f (r p).1 (r p).2).2.searches
  have hp := hr p
  rcases hrun : r p with ⟨e | a, q⟩
  · rw [hrun] at hp
    exact hp.passed
  · rw [hrun] at hp
    dsimp only at hp
    have hq := hf a ⟨p, q, hrun⟩ q
    generalize q.searches = after at hp hq
    cases hp with
    | resolved hnew => exact hq.onto hnew

/-- A search leads to its end, or it is the one that fails. -/
theorem lookUp (s : Scope) (needed : Bool) (w : Way) : Accounts (lookUp s needed w) := by
  intro p
  let q : Search := ⟨w, needed, s.startOf w.start⟩
  let p' : Progress := { p with searches := q :: p.searches }
  change Settles p.searches (follow q.strict w.place q.start q.names p').1
    (follow q.strict w.place q.start q.names p').2.searches
  obtain ⟨hq, j, hj⟩ | ⟨hq, f, hf, htells⟩ := follow_cases q.strict w.place q.start q.names p'
  · rw [hj]
    exact @Settles.resolved _ _ _ [q] (List.forall_mem_singleton.2 hq)
  · rw [hf]
    exact @Settles.failed _ _ _ _ [] hq htells nofun

/-- A helper searches for nothing. -/
theorem callHelper (h : Helper) (args : List Item) : Accounts (callHelper h args) := by
  refine of_eq fun p => ?_
  rw [callHelper_eq]
  cases h.apply args p.made <;> rfl

end Accounts

/-- A run searches for ways that there may be, if nothing else was searched for before. -/
def Seeks {α : Type} (W : Ways) (r : Run α) : Prop :=
  ∀ p, (∀ q ∈ p.searches, W q.needed q.way) → ∀ q ∈ (r p).2.searches, W q.needed q.way

namespace Seeks

variable {α β : Type} {W : Ways} {r : Run α}

theorem of_eq (h : ∀ p, (r p).2.searches = p.searches) : Seeks W r := by
  intro p hp
  rw [h p]
  exact hp

theorem bind {f : α → Run β} (hr : Seeks W r) (hf : ∀ a, CanGive r a → Seeks W (f a)) :
    Seeks W (r >>= f) := by
  intro p hp
  change ∀ q ∈ (ExceptT.bindCont f (r p).1 (r p).2).2.searches, _
  have hfirst := hr p hp
  rcases hrun : r p with ⟨e | a, m⟩
  · rw [hrun] at hfirst
    exact hfirst
  · rw [hrun] at hfirst
    exact hf a ⟨p, m, hrun⟩ m hfirst

theorem lookUp (s : Scope) {needed : Bool} {w : Way} (hw : W needed w) :
    Seeks W (lookUp s needed w) := by
  intro p hp
  rw [lookUp_snd]
  exact List.forall_mem_cons.2 ⟨hw, hp⟩

theorem callHelper (h : Helper) (args : List Item) : Seeks W (callHelper h args) := by
  refine of_eq fun p => ?_
  rw [callHelper_eq]
  cases h.apply args p.made <;> rfl

end Seeks

/-! ## Templates -/

instance {W : Ways} : Seeking W fun _ r => Seeks W r where
  pure _ := Seeks.of_eq fun _ => rfl
  throw _ := Seeks.of_eq fun _ => rfl
  bind := Seeks.bind
  lookUp s _ _ hw := Seeks.lookUp s hw
  newNumber := Seeks.of_eq fun _ => rfl
  callHelper := Seeks.callHelper

instance {W : Ways} : Seeking W fun _ r => Accounts r where
  pure := Accounts.pure
  throw := Accounts.throw
  bind := Accounts.bind
  lookUp s needed w _ := Accounts.lookUp s needed w
  newNumber := Accounts.of_eq fun _ => rfl
  callHelper := Accounts.callHelper

end Template

end ProxyFleet
