import Mathlib.Order.Defs.Unbundled
import ProxyFleet.Site.Action

/-!
# What work writes

`Within R w` says that work `w` leaves the site in the relation `R` to what it
was. For a relation that is reflexive and transitive this is closed under
everything work is put together with, so that for each service it takes one step
for every line of its text.

Two relations are of use. Whatever work does, the store afterwards is `Edited`: a
chain of edits went through, each row put in has an id that was given out on the
way, and the clock stands still (`Grown`). Most work, moreover, never touches the
desk and never speaks to an agent (`Recorded`). Both say of which kind the edits
are.
-/

namespace ProxyFleet

/-- A store after some edits of a kind; ids of new rows have a number above `low` and up to
`high`. -/
inductive Store.Edited (P : Edit → Prop) (low high : Nat) (now : Instant) (s : Store) :
    Store → Prop
  | refl : Store.Edited P low high now s s
  | step {t u : Store} {e : Edit} {id : String} : Store.Edited P low high now s t → P e →
      (e.isNew = true → ∃ k, low < k ∧ k ≤ high ∧ id = Work.idOf k) →
      t.edit e id now = .ok u → Store.Edited P low high now s u

namespace Store.Edited

variable {P Q : Edit → Prop} {low low' high high' mid : Nat} {now : Instant} {s t u : Store}

theorem mono (h : Edited P low high now s t) (hP : ∀ e, P e → Q e) (hl : low' ≤ low)
    (hh : high ≤ high') : Edited Q low' high' now s t := by
  induction h with
  | refl => exact refl
  | step _ he hid hw ih =>
      refine step ih (hP _ he) (fun hn => ?_) hw
      obtain ⟨k, h1, h2, h3⟩ := hid hn
      exact ⟨k, by omega, by omega, h3⟩

theorem append (h1 : Edited P low high now s t) (h2 : Edited P low high now t u) :
    Edited P low high now s u := by
  induction h2 with
  | refl => exact h1
  | step _ he hid hw ih => exact step ih he hid hw

theorem trans (h1 : Edited P low mid now s t) (h2 : Edited P mid high now t u) (hl : low ≤ mid)
    (hh : mid ≤ high) : Edited P low high now s u :=
  append (h1.mono (fun _ => id) (Nat.le_refl _) hh) (h2.mono (fun _ => id) hl (Nat.le_refl _))

/-- Where nothing may be written, nothing changes. -/
theorem eq_of_none (h : Edited (fun _ => False) low high now s t) : t = s := by
  cases h with
  | refl => rfl
  | step _ he => exact False.elim he

end Store.Edited

/-- A site after some work: its store was edited. -/
structure Site.Grown (P : Edit → Prop) (a b : Site) : Prop where
  store : a.store.Edited P a.issued b.issued a.now b.store
  issued : a.issued ≤ b.issued
  now : b.now = a.now

/-- A site after work that was done away from the desk. -/
structure Site.Recorded (P : Edit → Prop) (a b : Site) : Prop extends Site.Grown P a b where
  opened : b.opened = a.opened
  desk : b.desk = a.desk
  events : b.events = a.events

namespace Site

variable {P Q : Edit → Prop} {a b c : Site}

theorem Grown.trans (h1 : Grown P a b) (h2 : Grown P b c) : Grown P a c where
  store := h1.store.trans (h1.now ▸ h2.store) h1.issued h2.issued
  issued := Nat.le_trans h1.issued h2.issued
  now := h2.now.trans h1.now

theorem Grown.mono (h : Grown P a b) (hP : ∀ e, P e → Q e) : Grown Q a b :=
  { h with store := h.store.mono hP (Nat.le_refl _) (Nat.le_refl _) }

/-- A site whose store, clock and numbering are the same. -/
theorem Grown.of_eq (hs : b.store = a.store) (hi : b.issued = a.issued) (hn : b.now = a.now) :
    Grown P a b :=
  ⟨hs ▸ .refl, Nat.le_of_eq hi.symm, hn⟩

theorem Recorded.trans (h1 : Recorded P a b) (h2 : Recorded P b c) : Recorded P a c where
  toGrown := h1.toGrown.trans h2.toGrown
  opened := h2.opened.trans h1.opened
  desk := h2.desk.trans h1.desk
  events := h2.events.trans h1.events

theorem Recorded.mono (h : Recorded P a b) (hP : ∀ e, P e → Q e) : Recorded Q a b :=
  { h with toGrown := h.toGrown.mono hP }

instance : Std.Refl (Grown P) := ⟨fun _ => .of_eq rfl rfl rfl⟩

instance : IsTrans Site (Grown P) := ⟨fun _ _ _ => Grown.trans⟩

instance : Std.Refl (Recorded P) := ⟨fun _ => ⟨.of_eq rfl rfl rfl, rfl, rfl, rfl⟩⟩

instance : IsTrans Site (Recorded P) := ⟨fun _ _ _ => Recorded.trans⟩

end Site

namespace Work

variable {α β : Type} {P : Edit → Prop} {R : Site → Site → Prop} {Q : Problem → Prop}

/-! ## Runs of work in parts -/

theorem runAt_bind_ok {w : Work α} {f : α → Work β} {a c : Site} {y : β}
    (h : (w >>= f).runAt a = (.ok y, c)) :
    ∃ x b, w.runAt a = (.ok x, b) ∧ (f x).runAt b = (.ok y, c) := by
  rw [runAt_bind] at h
  cases hw : w.runAt a with
  | mk r b =>
      rw [hw] at h
      cases r with
      | error p => simp at h
      | ok x => exact ⟨x, b, rfl, h⟩

theorem runAt_bind_error {w : Work α} {f : α → Work β} {a c : Site} {p : Problem}
    (h : (w >>= f).runAt a = (.error p, c)) :
    w.runAt a = (.error p, c) ∨
      ∃ x b, w.runAt a = (.ok x, b) ∧ (f x).runAt b = (.error p, c) := by
  rw [runAt_bind] at h
  cases hw : w.runAt a with
  | mk r b =>
      rw [hw] at h
      cases r with
      | error q => exact Or.inl (by simpa using h)
      | ok x => exact Or.inr ⟨x, b, rfl, h⟩

theorem runAt_bind_of_ok {w : Work α} {f : α → Work β} {a b : Site} {x : α}
    (h : w.runAt a = (.ok x, b)) : (w >>= f).runAt a = (f x).runAt b := by
  rw [runAt_bind, h]

theorem runAt_bind_of_error {w : Work α} {f : α → Work β} {a b : Site} {p : Problem}
    (h : w.runAt a = (.error p, b)) : (w >>= f).runAt a = (.error p, b) := by
  rw [runAt_bind, h]

/-! ## Relations that work keeps to -/

/-- Work that leaves every site in a relation to what it was. -/
def Within (R : Site → Site → Prop) (w : Work α) : Prop := ∀ a, R a (w.runAt a).2

/-- Work away from the desk that writes nothing but edits of a kind. -/
abbrev Writes (P : Edit → Prop) (w : Work α) : Prop := Within (Site.Recorded P) w

/-- Work that writes nothing but edits of a kind. -/
abbrev Grows (P : Edit → Prop) (w : Work α) : Prop := Within (Site.Grown P) w

/-- What is left of a write in the store. -/
theorem map_snd_ok {x : Except StoreError (α × Store)} {y : α} {t : Store} (h : x = .ok (y, t)) :
    x.map Prod.snd = .ok t := by
  rw [h]
  rfl

/-- What is left of a removal in the store. -/
theorem map_fst_ok {x : Except StoreError (Store × Bool)} {t : Store} {b : Bool}
    (h : x = .ok (t, b)) : x.map Prod.fst = .ok t := by
  rw [h]
  rfl

namespace Within

theorem mono {R' : Site → Site → Prop} {w : Work α} (h : Within R w)
    (hR : ∀ a b, R a b → R' a b) : Within R' w :=
  fun a => hR _ _ (h a)

theorem grows {P' : Edit → Prop} {w : Work α} (h : Writes P w) (hP : ∀ e, P e → P' e) :
    Grows P' w :=
  h.mono fun _ _ hab => hab.toGrown.mono hP

theorem modify {f : Site → Site} (hf : ∀ a, R a (f a)) : Within R (modify f : Work PUnit) := hf

/-! ### Putting work together -/

section Reflexive

variable [Std.Refl R]

theorem pure (x : α) : Within R (pure x : Work α) := fun _ => refl_of R _

theorem throw (p : Problem) : Within R (throw p : Work α) := fun _ => refl_of R _

theorem get : Within R (get : Work Site) := fun _ => refl_of R _

theorem refuse (f : Failure) : Within R (Work.refuse f : Work α) := throw _

theorem ofResult (r : Except Failure α) : Within R (Work.ofResult r) := by
  cases r with
  | error f => exact refuse f
  | ok x => exact pure x

end Reflexive

section Transitive

variable [IsTrans Site R]

theorem bind {w : Work α} {f : α → Work β} (hw : Within R w) (hf : ∀ x, Within R (f x)) :
    Within R (w >>= f) := by
  intro a
  have hwa := hw a
  rw [runAt_bind]
  cases h : w.runAt a with
  | mk r b =>
      rw [h] at hwa
      cases r with
      | error p => exact hwa
      | ok x => exact trans_of R hwa (hf x b)

theorem tryCatch {w : Work α} {f : Problem → Work α} (hw : Within R w)
    (hf : ∀ p, Within R (f p)) : Within R (tryCatch w f) := by
  intro a
  have hwa := hw a
  rw [runAt_tryCatch]
  cases h : w.runAt a with
  | mk r b =>
      rw [h] at hwa
      cases r with
      | error p => exact trans_of R hwa (hf p b)
      | ok x => exact hwa

end Transitive

section Closure

variable [Std.Refl R] [IsTrans Site R]

theorem ask (f : Store → α) : Within R (Work.ask f) := bind get fun _ => pure _

theorem now : Within R Work.now := bind get fun _ => pure _

theorem attempt {w : Work α} (hw : Within R w) : Within R (Work.attempt w) :=
  tryCatch (bind hw fun _ => pure _) fun _ => pure _

theorem refuseIf {c : Prop} [Decidable c] {f : Failure} {w : Work α} (hw : Within R w) :
    Within R (if c then Work.refuse f >>= fun _ : PUnit => w else w) := by
  split
  · exact bind (refuse f) fun _ => hw
  · exact hw

theorem optionMapM {f : α → Work β} (hf : ∀ x, Within R (f x)) :
    ∀ o : Option α, Within R (o.mapM f)
  | none => pure _
  | some x => bind (hf x) fun _ => pure _

theorem forM {f : α → Work PUnit} (hf : ∀ x, Within R (f x)) :
    ∀ xs : List α, Within R (xs.forM f)
  | [] => pure _
  | x :: xs => bind (hf x) fun _ => forM hf xs

theorem requireHost (id : String) : Within R (Work.requireHost id) := by
  refine bind (ask _) fun h => ?_
  cases h with
  | none => exact refuse _
  | some h => exact pure h

theorem requireTemplate (id : String) : Within R (Work.requireTemplate id) := by
  refine bind (ask _) fun t => ?_
  cases t with
  | none => exact refuse _
  | some t => exact pure t

theorem callHost (id : String) : Within R (Work.callHost id) :=
  refuseIf (requireHost id)

end Closure

/-! ### Writing -/

theorem tell (level : LogLevel) (message : String) (facts : Fields) :
    Writes P (Work.tell level message facts) :=
  modify fun _ => ⟨.of_eq rfl rfl rfl, rfl, rfl, rfl⟩

/-- A write that puts no row in. -/
theorem write {f : Store → Instant → Except StoreError (α × Store)}
    (hf : ∀ {s now x t}, f s now = .ok (x, t) →
      ∃ e, P e ∧ e.isNew = false ∧ s.edit e "" now = .ok t) :
    Writes P (Work.write f) := by
  intro a
  simp only [Work.write, runAt_bind, runAt_get]
  cases h : f a.store a.now with
  | error e => exact refl_of (Site.Recorded P) a
  | ok r =>
      obtain ⟨e, hP, hn, he⟩ := hf h
      exact ⟨⟨.step .refl hP (fun hnew => absurd hnew (by rw [hn]; decide)) he, Nat.le_refl _, rfl⟩,
        rfl, rfl, rfl⟩

/-- A write that puts a row in. -/
theorem create {f : Store → String → Instant → Except StoreError (α × Store)}
    (hf : ∀ {s id now x t}, f s id now = .ok (x, t) → ∃ e, P e ∧ s.edit e id now = .ok t) :
    Writes P (Work.create f) := by
  intro a
  simp only [Work.create, Work.freshId, Work.write, runAt_bind, runAt_get, runAt_modify, runAt_pure]
  cases h : f a.store (idOf (a.issued + 1)) a.now with
  | error e => exact ⟨⟨.refl, Nat.le_succ _, rfl⟩, rfl, rfl, rfl⟩
  | ok r =>
      obtain ⟨e, hP, he⟩ := hf h
      exact ⟨⟨.step .refl hP (fun _ => ⟨_, Nat.lt_succ_self _, Nat.le_refl _, rfl⟩) he,
        Nat.le_succ _, rfl⟩, rfl, rfl, rfl⟩

theorem remove {f : Store → Except StoreError (Store × Bool)}
    (hf : ∀ {s t b}, f s = .ok (t, b) →
      ∃ e, P e ∧ e.isNew = false ∧ ∀ now, s.edit e "" now = .ok t) :
    Writes P (Work.remove f) := by
  refine write fun {s now x t} h => ?_
  cases hs : f s with
  | error e => rw [hs] at h; cases h
  | ok r =>
      rw [hs] at h
      cases h
      obtain ⟨e, hP, hn, he⟩ := hf hs
      exact ⟨e, hP, hn, he now⟩

/-- Every edit is work that writes it. -/
theorem edit {e : Edit} (he : P e) : Writes P (Work.edit e) := by
  have hok : ∀ {s : Store} {id : String} {now : Instant} {x : Unit} {t : Store},
      (s.edit e id now).map ((), ·) = .ok (x, t) → s.edit e id now = .ok t := by
    intro s id now x t h
    cases hs : s.edit e id now with
    | error err => rw [hs] at h; cases h
    | ok u => rw [hs] at h; cases h; rfl
  unfold Work.edit
  split
  · exact create fun h => ⟨e, he, hok h⟩
  · next hn => exact write fun h => ⟨e, he, by simpa using hn, hok h⟩

end Within

/-! ## How work breaks off -/

theorem runAt_attempt (w : Work α) (a : Site) :
    (attempt w).runAt a = (.ok (w.runAt a).1, (w.runAt a).2) := by
  unfold attempt
  rw [runAt_tryCatch, runAt_bind]
  cases w.runAt a with
  | mk r b => cases r <;> rfl

/-- Work that breaks off with problems of a kind only. -/
def Breaks (Q : Problem → Prop) (w : Work α) : Prop :=
  ∀ a p b, w.runAt a = (.error p, b) → Q p

namespace Breaks

theorem pure (x : α) : Breaks Q (pure x : Work α) := fun _ _ _ h => by cases h

theorem refuse {f : Failure} (hf : Q (.failure f)) : Breaks Q (Work.refuse f : Work α) :=
  fun _ _ _ h => by
    cases h
    exact hf

theorem ask (f : Store → α) : Breaks Q (Work.ask f) := fun _ _ _ h => by cases h

theorem bind {w : Work α} {f : α → Work β} (hw : Breaks Q w) (hf : ∀ x, Breaks Q (f x)) :
    Breaks Q (w >>= f) := fun a p c h => by
  rcases runAt_bind_error h with h | ⟨x, b, -, h⟩
  · exact hw a p c h
  · exact hf x b p c h

theorem refuseIf {c : Prop} [Decidable c] {f : Failure} {w : Work α} (hf : Q (.failure f))
    (hw : Breaks Q w) : Breaks Q (if c then Work.refuse f >>= fun _ : PUnit => w else w) := by
  split
  · exact bind (refuse hf) fun _ => hw
  · exact hw

theorem attempt (w : Work α) : Breaks Q (Work.attempt w) := fun _ _ _ h => by
  rw [runAt_attempt] at h
  cases h

theorem tell (level : LogLevel) (message : String) (facts : Fields) :
    Breaks Q (Work.tell level message facts) := fun _ _ _ h => by cases h

/-- Work that never breaks off gives a result. -/
theorem result {w : Work α} (h : Breaks (fun _ => False) w) (a : Site) :
    ∃ x, w.runAt a = (.ok x, (w.runAt a).2) := by
  cases hw : w.runAt a with
  | mk r b =>
      cases r with
      | error p => exact (h a p b hw).elim
      | ok x => exact ⟨x, rfl⟩

end Breaks

end Work

end ProxyFleet
