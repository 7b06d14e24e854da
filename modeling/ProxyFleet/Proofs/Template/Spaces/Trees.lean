import ProxyFleet.Proofs.Template.Spaces.Scan
import ProxyFleet.Template.Reader

/-!
# Reading a text with spaces put into it

Reading looks at nothing but the kinds of lexemes and at what stands inside of tags. Two texts
whose lexemes differ in plain text alone are read as the same tree, but for that plain text and for
the places of what stands behind it.
-/

namespace ProxyFleet

namespace Template

open Marked

/-- The second text is the first with spaces put between two closing braces and a third one. Before
it stands a text (`before`, the nearest character first). -/
def SpacesPut (before : List Char) (s t : String) : Prop :=
  ∃ ms, Sound before ms ∧ s = String.ofList (chars ms) ∧ t = String.ofList (spread ms)

theorem SpacesPut.refl (before : List Char) (s : String) : SpacesPut before s s :=
  ⟨unmarked s.toList, .unmarked _ _, by rw [chars_unmarked, String.ofList_toList],
    by rw [spread_unmarked, String.ofList_toList]⟩

/-! ## Trees that say the same -/

/-- The same path, wherever it stands. -/
def Path.Alike (p q : Path) : Prop := p = { q with place := p.place }

/-- The same way or literal, wherever it stands. -/
inductive Head.Alike : Head → Head → Prop
  | path {p q : Path} (h : p.Alike q) : Alike (.path p) (.path q)
  | literal (l : Literal) (p q : Place) : Alike (.literal l p) (.literal l q)

theorem Head.Alike.spelling_eq {h k : Head} (hh : h.Alike k) : h.spelling = k.spelling := by
  cases hh with
  | path h => exact congrArg (Literal.string ·.spelling) h
  | literal => rfl

mutual

/-- The same thing given to a helper, wherever it stands. -/
inductive Expr.Alike : Expr → Expr → Prop
  | head {h k : Head} (hh : h.Alike k) : Expr.Alike (.head h) (.head k)
  | call {h k : Head} {ps qs : List Expr} {ms ns : List (String × Expr)} {s t : Span}
      (hh : h.Alike k) (hp : List.Forall₂ Expr.Alike ps qs) (hn : List.Forall₂ GivenAlike ms ns) :
      Expr.Alike (.call h ps ms s) (.call k qs ns t)

/-- The same thing given by the same name. -/
inductive GivenAlike : String × Expr → String × Expr → Prop
  | mk (k : String) {e f : Expr} (h : Expr.Alike e f) : GivenAlike (k, e) (k, f)

end

/-- The same head with the same given to it, wherever it stands. -/
structure Call.Alike (c d : Call) : Prop where
  head : c.head.Alike d.head
  params : List.Forall₂ Expr.Alike c.params d.params
  named : List.Forall₂ GivenAlike c.named d.named

mutual

/-- The same statement, but for spaces put into plain text. -/
inductive Statement.Alike : Statement → Statement → Prop
  | text {before : List Char} {s t : String} (h : SpacesPut before s t) :
      Statement.Alike (.ofText s) (.ofText t)
  | comment (t : Trim) : Statement.Alike (.comment t) (.comment t)
  | insert {c d : Call} (h : c.Alike d) (t : Trim) : Statement.Alike (.insert c t) (.insert d t)
  | decorator {c d : Call} (h : c.Alike d) (t : Trim) :
      Statement.Alike (.decorator c t) (.decorator d t)
  | block (decorator : Bool) {c d : Call} {p q i j : Option Program} (h : c.Alike d)
      (hp : Option.Rel Program.Alike p q) (hi : Option.Rel Program.Alike i j)
      (opened inverted closed : Trim) :
      Statement.Alike (.block decorator c p i opened inverted closed)
        (.block decorator d q j opened inverted closed)
  | partialTag {e f : Expr} {ps qs : List Expr} {ms ns : List (String × Expr)} {a b : Place}
      (h : e.Alike f) (hp : List.Forall₂ Expr.Alike ps qs) (hn : List.Forall₂ GivenAlike ms ns)
      (indent : String) (t : Trim) :
      Statement.Alike (.partialTag e ps ms indent t a) (.partialTag f qs ns indent t b)
  | partialBlock {e f : Expr} {ps qs : List Expr} {ms ns : List (String × Expr)} {p q : Program}
      {a b : Place} (h : e.Alike f) (hp : List.Forall₂ Expr.Alike ps qs)
      (hn : List.Forall₂ GivenAlike ms ns) (hq : Program.Alike p q) (opened closed : Trim) :
      Statement.Alike (.partialBlock e ps ms p opened closed a)
        (.partialBlock f qs ns q opened closed b)

/-- The same program, but for spaces put into plain text. -/
inductive Program.Alike : Program → Program → Prop
  | mk {ss ts : List Statement} (h : List.Forall₂ Statement.Alike ss ts) (names : List String)
      (chained : Bool) : Program.Alike (.mk ss names chained) (.mk ts names chained)

end

/-- The same mistake, wherever it was made. -/
inductive Mistake.Alike : Mistake → Mistake → Prop
  | unreadable : Alike .unreadable .unreadable
  | mismatch (opened closed : Literal) (p q : Place) :
      Alike (.mismatch opened closed p) (.mismatch opened closed q)
  | badPath (spelling : String) (p q : Place) : Alike (.badPath spelling p) (.badPath spelling q)
  | inverseOnDecorator : Alike .inverseOnDecorator .inverseOnDecorator

/-- Two readings come out alike: both with what is related, or both with the same mistake. -/
inductive ReadAlike {α β : Type} (R : α → β → Prop) : Except Mistake α → Except Mistake β → Prop
  | ok {a : α} {b : β} (h : R a b) : ReadAlike R (.ok a) (.ok b)
  | error {m n : Mistake} (h : m.Alike n) : ReadAlike R (.error m) (.error n)

theorem ReadAlike.cases {α β : Type} {R : α → β → Prop} {x : Except Mistake α}
    {y : Except Mistake β} (h : ReadAlike R x y) :
    (∃ a b, x = .ok a ∧ y = .ok b ∧ R a b) ∨
      ∃ m n, x = .error m ∧ y = .error n ∧ m.Alike n := by
  cases h with
  | ok h => exact .inl ⟨_, _, rfl, rfl, h⟩
  | error h => exact .inr ⟨_, _, rfl, rfl, h⟩

theorem ReadAlike.bind {α β γ δ : Type} {R : α → β → Prop} {S : γ → δ → Prop}
    {x : Except Mistake α} {y : Except Mistake β} {f : α → Except Mistake γ}
    {g : β → Except Mistake δ} (h : ReadAlike R x y) (hf : ∀ a b, R a b → ReadAlike S (f a) (g b)) :
    ReadAlike S (x >>= f) (y >>= g) := by
  cases h with
  | ok h => exact hf _ _ h
  | error h => exact .error h

namespace Read

open Lexeme (Spaced SpacedAt)

/-- The lexemes still to be read differ in plain text alone. -/
abbrev InputAlike : Input → Input → Prop := List.Forall₂ SpacedAt

namespace InputAlike

variable {xs ys : Input} {l : Lexeme} {p q : Place}

/-- What is no plain text stands at the front of both inputs. -/
theorem left (h : InputAlike ((l, p) :: xs) ys) (hl : ∀ s, l ≠ .content s) :
    ∃ q ys', ys = (l, q) :: ys' ∧ InputAlike xs ys' := by
  obtain _ | ⟨hl', hrest⟩ := h
  rename_i y ys'
  obtain ⟨l', q⟩ := y
  cases hl' with
  | same => exact ⟨q, ys', rfl, hrest⟩
  | content => exact absurd rfl (hl _)

theorem right (h : InputAlike xs ((l, q) :: ys)) (hl : ∀ s, l ≠ .content s) :
    ∃ p xs', xs = (l, p) :: xs' ∧ InputAlike xs' ys := by
  obtain _ | ⟨hl', hrest⟩ := h
  rename_i x xs'
  obtain ⟨l', p⟩ := x
  cases hl' with
  | same => exact ⟨p, xs', rfl, hrest⟩
  | content => exact absurd rfl (hl _)

end InputAlike

/-- Two readers that read inputs alike, and leave inputs alike. -/
structure Agrees {α β : Type} (R : α → β → Prop) (m : Read α) (m' : Read β) : Prop where
  reads {xs ys : Input} : InputAlike xs ys →
    ReadAlike (fun a b => R a.1 b.1 ∧ InputAlike a.2 b.2) (m xs) (m' ys)

namespace Agrees

variable {α β γ δ : Type} {R : α → β → Prop} {S : γ → δ → Prop}

theorem pure {a : α} {b : β} (h : R a b) : Agrees R (pure a) (pure b) :=
  ⟨fun hxs => .ok ⟨h, hxs⟩⟩

theorem bind {m : Read α} {m' : Read β} {f : α → Read γ} {g : β → Read δ} (h : Agrees R m m')
    (hf : ∀ a b, R a b → Agrees S (f a) (g b)) : Agrees S (m >>= f) (m' >>= g) :=
  ⟨fun hxs => (h.reads hxs).bind fun _ _ hab => (hf _ _ hab.1).reads hab.2⟩

theorem throw {e e' : Mistake} (h : e.Alike e') :
    Agrees R (throw e) (throw e') := ⟨fun _ => .error h⟩

theorem unreadable : Agrees R (MonadExcept.throw Mistake.unreadable)
    (MonadExcept.throw Mistake.unreadable) := throw .unreadable

theorem get : Agrees InputAlike get get := ⟨fun hxs => .ok ⟨hxs, hxs⟩⟩

theorem set {xs ys : Input} (h : InputAlike xs ys) :
    Agrees (fun _ _ => True) (set xs : Read PUnit) (set ys : Read PUnit) :=
  ⟨fun _ => .ok ⟨trivial, h⟩⟩

/-- A result worked out besides. -/
theorem liftExcept {x : Except Mistake α} {y : Except Mistake β} (h : ReadAlike R x y) :
    Agrees R (liftM x : Read α) (liftM y : Read β) := by
  refine ⟨fun {xs ys} hxs => ?_⟩
  cases h with
  | ok h => exact .ok ⟨h, hxs⟩
  | error h => exact .error h

end Agrees

theorem peek_agrees : Agrees SpacedAt peek peek := by
  refine .bind .get fun xs ys hxs => ?_
  cases hxs with
  | nil => exact .unreadable
  | cons h _ => exact .pure h

theorem take_agrees : Agrees SpacedAt take take := by
  refine .bind .get fun xs ys hxs => ?_
  cases hxs with
  | nil => exact .unreadable
  | cons h hrest => exact .bind (.set hrest) fun _ _ _ => .pure h

theorem expect_agrees {l : Lexeme} (hl : ∀ s, l ≠ .content s) :
    Agrees (fun _ _ => True) (expect l) (expect l) := by
  refine .bind take_agrees fun x y h => ?_
  by_cases hx : x.1 = l
  · rw [if_pos hx, if_pos ((h.eq_iff hl).1 hx)]
    exact .pure trivial
  · rw [if_neg hx, if_neg (mt (h.eq_iff hl).2 hx)]
    exact .unreadable

theorem close_agrees : Agrees Eq close close := by
  refine .bind take_agrees fun x y h => ?_
  obtain ⟨l, p⟩ := x
  obtain ⟨l', q⟩ := y
  cases h with
  | content => exact .unreadable
  | same =>
      cases l
      case close right => exact .pure rfl
      all_goals exact .unreadable

/-! ## Ways and literals -/

theorem segments_alike {xs ys : Input} (h : InputAlike xs ys) :
    ReadAlike (fun a b => a.1 = b.1 ∧ InputAlike a.2 b.2) (segments xs) (segments ys) := by
  induction xs using segments.induct generalizing ys with
  | case1 s p t q rest ih =>
      obtain ⟨p', _, rfl, hid⟩ := h.left nofun
      obtain ⟨q', ys, rfl, hrest⟩ := hid.left nofun
      rw [segments, segments]
      exact (ih hrest).bind fun a b hab => .ok ⟨congrArg ((s, t) :: ·) hab.1, hab.2⟩
  | case2 s p rest hrest =>
      obtain ⟨p', ys, rfl, hys⟩ := h.left nofun
      rw [segments, segments]
      · exact .error .unreadable
      · rintro t q ys' rfl
        obtain ⟨q', rest', rfl, -⟩ := hys.right nofun
        exact hrest _ _ _ rfl
      · exact hrest
  | case3 xs hid hseparator =>
      rw [segments, segments]
      · exact .ok ⟨rfl, h⟩
      · rintro s q t q' ys' rfl
        obtain ⟨p, xs', rfl, hrest⟩ := h.right nofun
        obtain ⟨p', xs, rfl, -⟩ := hrest.right nofun
        exact hid _ _ _ _ _ rfl
      · rintro s q ys' rfl
        obtain ⟨p, xs', rfl, -⟩ := h.right nofun
        exact hseparator _ _ _ rfl
      · exact hid
      · exact hseparator

theorem addPart_alike {p q : Path} (h : p.Alike q) (separator name : String) :
    ReadAlike Path.Alike (addPart p separator name) (addPart q separator name) := by
  obtain ⟨d, n, parts, spelling, place⟩ := p
  obtain ⟨d', n', parts', spelling', place'⟩ := q
  cases h
  rw [addPart, addPart]
  dsimp only
  split
  · split
    · exact .error (.badPath _ _ _)
    · exact .ok rfl
  · exact .ok rfl

theorem parts_alike {p q : Path} (h : p.Alike q) (more : List (String × String)) :
    ReadAlike Path.Alike (more.foldlM (fun p s => addPart p s.1 s.2) p)
      (more.foldlM (fun p s => addPart p s.1 s.2) q) := by
  induction more generalizing p q with
  | nil => exact .ok h
  | cons s more ih =>
      rw [List.foldlM_cons, List.foldlM_cons]
      exact (addPart_alike h s.1 s.2).bind fun _ _ h => ih h

/-- What may stand behind a way is no plain text. -/
theorem follows_eq {xs ys : Input} (h : InputAlike xs ys) :
    (xs.head?.any fun x => mayFollowPath x.1) = ys.head?.any fun x => mayFollowPath x.1 := by
  obtain _ | ⟨hl, -⟩ := h
  · rfl
  · rename_i x y xs ys
    obtain ⟨l, p⟩ := x
    obtain ⟨l', q⟩ := y
    cases hl <;> rfl

theorem path_agrees (data : Bool) (p q : Place) : Agrees Path.Alike (path data p) (path data q) := by
  refine .bind take_agrees fun x y h => ?_
  obtain ⟨l, a⟩ := x
  obtain ⟨l', b⟩ := y
  cases h with
  | content => exact .unreadable
  | same =>
      cases l
      case id first =>
        refine .bind .get fun xs ys hxs => .bind (.liftExcept (segments_alike hxs)) fun r r' hr => ?_
        obtain ⟨more, rest⟩ := r
        obtain ⟨more', rest'⟩ := r'
        obtain ⟨rfl, hrest⟩ := hr
        refine .bind (.set hrest) fun _ _ _ => ?_
        have hparts := parts_alike (p := ⟨data, 0, [], if data then "@" else "", p⟩)
          (q := ⟨data, 0, [], if data then "@" else "", q⟩) rfl (("", first) :: more)
        dsimp only
        rw [follows_eq hrest]
        obtain ⟨_, _, hx, hy, h⟩ | ⟨_, _, hx, hy, h⟩ := hparts.cases
        · rw [hx, hy]
          exact .pure h
        · rw [hx, hy]
          refine .throw ?_
          split
          · exact h
          · exact .unreadable
      all_goals exact .unreadable

theorem head_agrees : Agrees Head.Alike head head := by
  refine .bind peek_agrees fun x y h => ?_
  obtain ⟨l, p⟩ := x
  obtain ⟨l', q⟩ := y
  have hpath (data : Bool) : Agrees Head.Alike (do return .path (← path data p))
      (do return .path (← path data q)) :=
    .bind (path_agrees data p q) fun _ _ h => .pure (.path h)
  have hliteral (l : Literal) : Agrees Head.Alike (do let _ ← take; return .literal l p)
      (do let _ ← take; return .literal l q) :=
    .bind take_agrees fun _ _ _ => .pure (.literal l p q)
  cases h with
  | content => exact .unreadable
  | same =>
      cases l
      case id => exact hpath false
      case data => exact .bind take_agrees fun _ _ _ => hpath true
      case string s => exact hliteral (.string s)
      case number n => exact hliteral (.number n)
      case bool b => exact hliteral (.bool b)
      case undefined => exact hliteral .undefined
      case null => exact hliteral .null
      all_goals exact .unreadable

/-! ## Calls -/

theorem nextName?_eq {xs ys : Input} (h : InputAlike xs ys) : nextName? xs = nextName? ys := by
  by_cases hx : ∃ k p q rest, xs = (.id k, p) :: (.equals, q) :: rest
  · obtain ⟨k, p, q, rest, rfl⟩ := hx
    obtain ⟨p', _, rfl, h'⟩ := h.left nofun
    obtain ⟨q', _, rfl, -⟩ := h'.left nofun
    rfl
  · have hy : ¬∃ k p q rest, ys = (.id k, p) :: (.equals, q) :: rest := by
      rintro ⟨k, p, q, rest, rfl⟩
      obtain ⟨p', _, rfl, h'⟩ := h.right nofun
      obtain ⟨q', _, rfl, -⟩ := h'.right nofun
      exact hx ⟨_, _, _, _, rfl⟩
    have hnone {zs : Input} (hz : ¬∃ k p q rest, zs = (.id k, p) :: (.equals, q) :: rest) :
        nextName? zs = none := by
      unfold nextName?
      split
      · exact absurd ⟨_, _, _, _, rfl⟩ hz
      · rfl
    rw [hnone hx, hnone hy]

theorem paramNext_eq {xs ys : Input} (h : InputAlike xs ys) : paramNext xs = paramNext ys := by
  rw [paramNext, paramNext, nextName?_eq h]
  obtain _ | ⟨hl, -⟩ := h
  · rfl
  · rename_i x y xs ys
    obtain ⟨l, p⟩ := x
    obtain ⟨l', q⟩ := y
    cases hl <;> rfl

/-- What is given to a helper, with any fuel: as one thing, in order and by name. -/
theorem given_agrees (fuel : Nat) : Agrees Expr.Alike (expr fuel) (expr fuel) ∧
    Agrees (List.Forall₂ Expr.Alike) (params fuel) (params fuel) ∧
    Agrees (List.Forall₂ GivenAlike) (named fuel) (named fuel) := by
  induction fuel with
  | zero => exact ⟨.unreadable, .unreadable, .unreadable⟩
  | succ fuel ih =>
      obtain ⟨hexpr, hparams, hnamed⟩ := ih
      refine ⟨?_, ?_, ?_⟩
      · rw [expr]
        refine .bind peek_agrees fun x y h => ?_
        obtain ⟨l, p⟩ := x
        obtain ⟨l', q⟩ := y
        dsimp only
        by_cases hl : l = .openCall
        · rw [if_pos hl, if_pos ((Spaced.eq_iff h (m := .openCall) nofun).1 hl)]
          refine .bind take_agrees fun _ _ _ => .bind head_agrees fun _ _ hhead => ?_
          refine .bind hparams fun _ _ hps => .bind hnamed fun _ _ hns => ?_
          exact .bind peek_agrees fun _ _ _ => .bind (expect_agrees nofun) fun _ _ _ =>
            .pure (.call hhead hps hns)
        · rw [if_neg hl, if_neg (mt (Spaced.eq_iff h (m := .openCall) nofun).2 hl)]
          exact .bind head_agrees fun _ _ h => .pure (.head h)
      · rw [params]
        refine .bind .get fun xs ys hxs => ?_
        rw [paramNext_eq hxs]
        split
        · exact .bind hexpr fun _ _ he => .bind hparams fun _ _ hes => .pure (.cons he hes)
        · exact .pure .nil
      · rw [named]
        refine .bind .get fun xs ys hxs => ?_
        rw [nextName?_eq hxs]
        split
        · exact .bind take_agrees fun _ _ _ => .bind take_agrees fun _ _ _ =>
            .bind hexpr fun _ _ he => .bind hnamed fun _ _ hes => .pure (.cons (.mk _ he) hes)
        · exact .pure .nil

theorem params_agrees (fuel : Nat) :
    Agrees (List.Forall₂ Expr.Alike) (params fuel) (params fuel) := (given_agrees fuel).2.1

theorem named_agrees (fuel : Nat) :
    Agrees (List.Forall₂ GivenAlike) (named fuel) (named fuel) := (given_agrees fuel).2.2

theorem call_agrees (fuel : Nat) (p q : Place) : Agrees Call.Alike (call fuel p) (call fuel q) :=
  .bind head_agrees fun _ _ hhead => .bind (params_agrees fuel) fun _ _ hps =>
    .bind (named_agrees fuel) fun _ _ hns => .pure ⟨hhead, hps, hns⟩

theorem finish_agrees {c d : Call} (h : c.Alike d) : Agrees Call.Alike (finish c) (finish d) :=
  .bind peek_agrees fun _ _ _ => .pure ⟨h.head, h.params, h.named⟩

/-- The same name of a partial with the same given to it. -/
structure PartialAlike (x y : Expr × List Expr × List (String × Expr)) : Prop where
  name : x.1.Alike y.1
  params : List.Forall₂ Expr.Alike x.2.1 y.2.1
  named : List.Forall₂ GivenAlike x.2.2 y.2.2

theorem partialCall_agrees (fuel : Nat) :
    Agrees PartialAlike (partialCall fuel) (partialCall fuel) :=
  .bind (given_agrees fuel).1 fun _ _ hname => .bind (params_agrees fuel) fun _ _ hps =>
    .bind (named_agrees fuel) fun _ _ hns => .pure ⟨hname, hps, hns⟩

theorem namesToBar_alike {xs ys : Input} (h : InputAlike xs ys) :
    ReadAlike (fun a b => a.1 = b.1 ∧ InputAlike a.2 b.2) (namesToBar xs) (namesToBar ys) := by
  induction xs using namesToBar.induct generalizing ys with
  | case1 t p q rest =>
      obtain ⟨p', _, rfl, hbar⟩ := h.left nofun
      obtain ⟨q', ys, rfl, hrest⟩ := hbar.left nofun
      exact .ok ⟨rfl, hrest⟩
  | case2 t p rest hbar ih =>
      obtain ⟨p', ys, rfl, hrest⟩ := h.left nofun
      rw [namesToBar, namesToBar]
      · exact (ih hrest).bind fun a b hab => .ok ⟨congrArg (t :: ·) hab.1, hab.2⟩
      · rintro q ys' rfl
        obtain ⟨q', rest', rfl, -⟩ := hrest.right nofun
        exact hbar _ _ rfl
      · exact hbar
  | case3 xs hbar hid =>
      rw [namesToBar, namesToBar]
      · exact .error .unreadable
      · rintro t p q ys' rfl
        obtain ⟨p', _, rfl, -⟩ := h.right nofun
        exact hid _ _ _ rfl
      · rintro t p ys' rfl
        obtain ⟨p', _, rfl, -⟩ := h.right nofun
        exact hid _ _ _ rfl
      · exact hbar
      · exact hid

theorem blockNames_agrees : Agrees Eq blockNames blockNames := by
  refine .bind .get fun xs ys hxs => ?_
  obtain _ | ⟨hl, hrest⟩ := hxs
  · exact .pure rfl
  · rename_i x y xs ys
    obtain ⟨l, p⟩ := x
    obtain ⟨l', q⟩ := y
    cases hl with
    | content => exact .pure rfl
    | same =>
        cases l
        case openNames =>
          refine .bind (.liftExcept (namesToBar_alike hrest)) fun r r' hr => ?_
          exact .bind (.set hr.2) fun _ _ _ => .pure hr.1
        all_goals exact .pure rfl

/-! ## Statements -/

/-- The same branch, but for spaces put into plain text. -/
structure BranchAlike (a b : Branch) : Prop where
  trim : a.trim = b.trim
  program : a.program.Alike b.program

theorem trims_eq {a b : Option Branch} (h : Option.Rel BranchAlike a b) :
    (a.map (·.trim)).getD .none = (b.map (·.trim)).getD .none := by
  cases h with
  | none => rfl
  | some h => exact h.trim

theorem closeFirst_alike (closed : Trim) {ss ts : List Statement}
    (h : List.Forall₂ Statement.Alike ss ts) :
    List.Forall₂ Statement.Alike (closeFirst closed ss) (closeFirst closed ts) := by
  cases h with
  | nil => exact .nil
  | cons hs hss =>
      cases hs with
      | block d hc hp hi opened inverted _ =>
          exact .cons (.block d hc hp hi opened inverted closed) hss
      | text h => exact .cons (.text h) hss
      | comment t => exact .cons (.comment t) hss
      | insert h t => exact .cons (.insert h t) hss
      | decorator h t => exact .cons (.decorator h t) hss
      | partialTag h hp hn indent t => exact .cons (.partialTag h hp hn indent t) hss
      | partialBlock h hp hn hq o c => exact .cons (.partialBlock h hp hn hq o c) hss

theorem closeChained_alike (closed : Trim) {p q : Program} (h : p.Alike q) :
    (if p.chained then p.withBody (closeFirst closed p.body) else p).Alike
      (if q.chained then q.withBody (closeFirst closed q.body) else q) := by
  obtain ⟨hs, names, chained⟩ := h
  cases chained with
  | false => exact .mk hs names false
  | true => exact .mk (closeFirst_alike closed hs) names true

theorem makeBlock_alike (decorator : Bool) {c d : Call} (hc : c.Alike d) (names : List String)
    {ss ts : List Statement} (hs : List.Forall₂ Statement.Alike ss ts) {a b : Option Branch}
    (hb : Option.Rel BranchAlike a b) (inverted : Bool) (opened closed : Trim) :
    ReadAlike Statement.Alike (makeBlock decorator c names ss a inverted opened closed)
      (makeBlock decorator d names ts b inverted opened closed) := by
  have hprogram : (Program.mk ss names false).Alike (.mk ts names false) := .mk hs names false
  rw [makeBlock, makeBlock]
  cases hb with
  | none =>
      rw [Option.isSome_none, Bool.and_false, if_neg Bool.false_ne_true, if_neg Bool.false_ne_true]
      refine .ok ?_
      split
      · exact .block decorator hc .none (.some hprogram) opened .none closed
      · exact .block decorator hc (.some hprogram) .none opened .none closed
  | some hb =>
      rename_i a b
      have hother := closeChained_alike closed hb.program
      dsimp only [Option.isSome_some, Option.map_some]
      rw [hb.trim]
      split
      · exact .error .inverseOnDecorator
      · refine .ok ?_
        split
        · exact .block decorator hc (.some hother) (.some hprogram) opened _ closed
        · exact .block decorator hc (.some hprogram) (.some hother) opened _ closed

theorem checkEnd_agrees (opened closed : Literal) (p q : Place) :
    Agrees (fun _ _ => True) (checkEnd opened p closed) (checkEnd opened q closed) := by
  rw [checkEnd, checkEnd]
  split
  · exact .pure trivial
  · exact .throw (.mismatch _ _ _ _)

theorem exprSpelling_eq {e f : Expr} (h : e.Alike f) : (exprSpelling e).1 = (exprSpelling f).1 := by
  cases h with
  | head hh => exact hh.spelling_eq
  | call => rfl

theorem blockEnd_agrees : Agrees (fun a b => a.1.Alike b.1 ∧ a.2 = b.2) blockEnd blockEnd := by
  refine .bind take_agrees fun x y h => ?_
  obtain ⟨l, p⟩ := x
  obtain ⟨l', q⟩ := y
  cases h with
  | content => exact .unreadable
  | same =>
      cases l
      case openEnd left =>
        refine .bind head_agrees fun _ _ hhead => .bind close_agrees fun _ _ hright => ?_
        subst hright
        exact .pure ⟨hhead, rfl⟩
      all_goals exact .unreadable

theorem contents_alike {xs ys : Input} (h : InputAlike xs ys) :
    List.Forall₂ Statement.Alike (contents xs).1 (contents ys).1 ∧
      InputAlike (contents xs).2 (contents ys).2 := by
  induction h with
  | nil => exact ⟨.nil, .nil⟩
  | cons hl hrest ih =>
      rename_i x y xs ys
      obtain ⟨l, p⟩ := x
      obtain ⟨l', q⟩ := y
      cases hl with
      | content hs => exact ⟨.cons (.text ⟨_, hs, rfl, rfl⟩) ih.1, ih.2⟩
      | same =>
          cases l
          case content s => exact ⟨.cons (.text (.refl [] s)) ih.1, ih.2⟩
          all_goals exact ⟨.nil, .cons (.same _) hrest⟩

theorem rawBlock_agrees (fuel : Nat) (p q : Place) :
    Agrees Statement.Alike (rawBlock fuel p) (rawBlock fuel q) := by
  refine .bind (call_agrees fuel p q) fun c d hc => .bind (expect_agrees nofun) fun _ _ _ =>
    .bind .get fun xs ys hxs => ?_
  obtain ⟨hbody, hrest⟩ := contents_alike hxs
  refine .bind (.set hrest) fun _ _ _ => .bind take_agrees fun x y h => ?_
  obtain ⟨l, p⟩ := x
  obtain ⟨l', q⟩ := y
  cases h with
  | content => exact .unreadable
  | same =>
      cases l
      case endRaw name =>
        dsimp only
        rw [hc.head.spelling_eq]
        refine .bind (checkEnd_agrees _ _ _ _) fun _ _ _ => .bind (finish_agrees hc) fun _ _ hc =>
          .pure (.block false hc (.some (.mk hbody [] false)) .none _ _ _)
      all_goals exact .unreadable

/-- A block whose end has been read. -/
theorem closedBlock_agrees (decorator : Bool) {c d : Call} (hc : c.Alike d) (names : List String)
    {ss ts : List Statement} (hs : List.Forall₂ Statement.Alike ss ts) {a b : Option Branch}
    (hb : Option.Rel BranchAlike a b) (inverted : Bool) (opened : Trim) {e f : Head × Trim}
    (he : e.1.Alike f.1 ∧ e.2 = f.2) :
    Agrees (Option.Rel Statement.Alike)
      (do
        checkEnd c.head.spelling c.head.place e.1.spelling
        let c ← finish c
        return some (← makeBlock decorator c names ss a inverted opened e.2))
      (do
        checkEnd d.head.spelling d.head.place f.1.spelling
        let d ← finish d
        return some (← makeBlock decorator d names ts b inverted opened f.2)) := by
  rw [hc.head.spelling_eq, he.1.spelling_eq, he.2]
  exact .bind (checkEnd_agrees _ _ _ _) fun _ _ _ => .bind (finish_agrees hc) fun _ _ hc =>
    .bind (.liftExcept (makeBlock_alike decorator hc names hs hb inverted opened f.2))
      fun _ _ hs => .pure (.some hs)

/-- The readers of statements, with any fuel. -/
structure StatementsAgree (fuel : Nat) : Prop where
  statements : Agrees (List.Forall₂ Statement.Alike) (statements fuel) (statements fuel)
  statement : Agrees (Option.Rel Statement.Alike) (statement fuel) (statement fuel)
  otherwise : Agrees (Option.Rel BranchAlike) (otherwise fuel) (otherwise fuel)
  chain : Agrees (Option.Rel BranchAlike) (chain fuel) (chain fuel)

namespace StatementsAgree

variable {fuel : Nat}

theorem statements_succ (h : StatementsAgree fuel) : Agrees (List.Forall₂ Statement.Alike)
    (Read.statements (fuel + 1)) (Read.statements (fuel + 1)) := by
  rw [Read.statements]
  refine .bind h.statement fun s t hs => ?_
  cases hs with
  | none => exact .pure .nil
  | some hs => exact .bind h.statements fun _ _ hss => .pure (.cons hs hss)

theorem otherwise_succ (h : StatementsAgree fuel) : Agrees (Option.Rel BranchAlike)
    (Read.otherwise (fuel + 1)) (Read.otherwise (fuel + 1)) := by
  rw [Read.otherwise]
  refine .bind peek_agrees fun x y hx => ?_
  obtain ⟨l, p⟩ := x
  obtain ⟨l', q⟩ := y
  cases hx with
  | content => exact .pure .none
  | same =>
      cases l
      case inverse left right =>
        exact .bind take_agrees fun _ _ _ => .bind h.statements fun _ _ hs =>
          .pure (.some ⟨rfl, .mk hs [] false⟩)
      all_goals exact .pure .none

theorem chain_succ (h : StatementsAgree fuel) : Agrees (Option.Rel BranchAlike)
    (Read.chain (fuel + 1)) (Read.chain (fuel + 1)) := by
  rw [Read.chain]
  refine .bind peek_agrees fun x y hx => ?_
  obtain ⟨l, p⟩ := x
  obtain ⟨l', q⟩ := y
  cases hx with
  | content => exact h.otherwise
  | same =>
      cases l
      case openChain left =>
        refine .bind take_agrees fun _ _ _ => .bind (call_agrees fuel p q) fun c d hc => ?_
        refine .bind blockNames_agrees fun names _ hnames => .bind close_agrees fun right _ hright => ?_
        refine .bind h.statements fun ss ts hs => .bind h.chain fun a b hb => ?_
        refine .bind (finish_agrees hc) fun c d hc => ?_
        subst hnames hright
        rw [trims_eq hb]
        refine .bind (.liftExcept (makeBlock_alike false hc names hs hb false _ _)) fun _ _ hs => ?_
        exact .pure (.some ⟨rfl, .mk (.cons hs .nil) [] true⟩)
      all_goals exact h.otherwise

theorem statement_succ (h : StatementsAgree fuel) : Agrees (Option.Rel Statement.Alike)
    (Read.statement (fuel + 1)) (Read.statement (fuel + 1)) := by
  rw [Read.statement]
  refine .bind peek_agrees fun x y hx => ?_
  obtain ⟨l, p⟩ := x
  obtain ⟨l', q⟩ := y
  cases hx with
  | content hs =>
      exact .bind take_agrees fun _ _ _ => .pure (.some (.text ⟨_, hs, rfl, rfl⟩))
  | same =>
      cases l
      case content s => exact .bind take_agrees fun _ _ _ => .pure (.some (.text (.refl [] s)))
      case comment left right =>
        exact .bind take_agrees fun _ _ _ => .pure (.some (.comment ⟨left, right⟩))
      case openTag left decorator =>
        refine .bind take_agrees fun _ _ _ => .bind (call_agrees fuel p q) fun c d hc => ?_
        refine .bind close_agrees fun right _ hright => .bind (finish_agrees hc) fun c d hc => ?_
        subst hright
        refine .pure (.some ?_)
        split
        · exact .decorator hc _
        · exact .insert hc _
      case openUnescaped left =>
        refine .bind take_agrees fun _ _ _ => .bind (call_agrees fuel p q) fun c d hc => ?_
        refine .bind take_agrees fun x y hx => ?_
        obtain ⟨l, p⟩ := x
        obtain ⟨l', q⟩ := y
        cases hx with
        | content => exact .unreadable
        | same =>
            cases l
            case closeUnescaped right =>
              exact .bind (finish_agrees hc) fun _ _ hc => .pure (.some (.insert hc _))
            all_goals exact .unreadable
      case openRaw =>
        exact .bind take_agrees fun _ _ _ => .bind (rawBlock_agrees fuel p q) fun _ _ hs =>
          .pure (.some hs)
      case openPartial left =>
        refine .bind take_agrees fun _ _ _ => .bind (partialCall_agrees fuel) fun c d hc => ?_
        refine .bind close_agrees fun right _ hright => ?_
        subst hright
        exact .pure (.some (.partialTag hc.name hc.params hc.named "" _))
      case openPartialBlock left =>
        refine .bind take_agrees fun _ _ _ => .bind (partialCall_agrees fuel) fun c d hc => ?_
        refine .bind close_agrees fun right _ hright => .bind h.statements fun ss ts hs => ?_
        refine .bind blockEnd_agrees fun e e' he => ?_
        subst hright
        dsimp only
        rw [exprSpelling_eq hc.name, he.1.spelling_eq, he.2]
        exact .bind (checkEnd_agrees _ _ _ _) fun _ _ _ => .pure <| .some <|
          .partialBlock hc.name hc.params hc.named (.mk hs [] false) _ _
      case openBlock left decorator =>
        refine .bind take_agrees fun _ _ _ => .bind (call_agrees fuel p q) fun c d hc => ?_
        refine .bind blockNames_agrees fun names _ hnames => ?_
        refine .bind close_agrees fun right _ hright => .bind h.statements fun ss ts hs => ?_
        refine .bind h.chain fun a b hb => .bind blockEnd_agrees fun e e' he => ?_
        subst hnames hright
        exact closedBlock_agrees decorator hc names hs hb false _ he
      case openInverse left =>
        refine .bind take_agrees fun _ _ _ => .bind (call_agrees fuel p q) fun c d hc => ?_
        refine .bind blockNames_agrees fun names _ hnames => ?_
        refine .bind close_agrees fun right _ hright => .bind h.statements fun ss ts hs => ?_
        refine .bind h.otherwise fun a b hb => .bind blockEnd_agrees fun e e' he => ?_
        subst hnames hright
        exact closedBlock_agrees false hc names hs hb true _ he
      all_goals exact .pure .none

end StatementsAgree

theorem statementsAgree (fuel : Nat) : StatementsAgree fuel := by
  induction fuel with
  | zero => exact ⟨.unreadable, .unreadable, .unreadable, .unreadable⟩
  | succ fuel ih => exact ⟨ih.statements_succ, ih.statement_succ, ih.otherwise_succ, ih.chain_succ⟩

theorem template_agrees (fuel : Nat) :
    Agrees (List.Forall₂ Statement.Alike) (template fuel) (template fuel) :=
  .bind (statementsAgree fuel).statements fun _ _ hs => .bind (expect_agrees nofun) fun _ _ _ =>
    .pure hs

end Read

/-- Texts whose lexemes differ in plain text alone are read alike. -/
theorem read_alike {s t : String}
    (h : List.Forall₂ Lexeme.SpacedAt (Lexeme.scan s.toList) (Lexeme.scan t.toList)) :
    ReadAlike Program.Alike (read s) (read t) := by
  rw [read, read, h.length_eq]
  exact ((Read.template_agrees _).reads h).bind fun _ _ hs => .ok (.mk hs.1 [] false)

end Template

end ProxyFleet
