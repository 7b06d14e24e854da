/-!
# Results with notes

Reading and writing configurations never stops at a detail it cannot keep: it
goes on and notes what was lost. `Noted α` is a result together with those
notes, in the order they were made.
-/

namespace ProxyFleet

/-- A result and the notes made on the way to it. -/
structure Noted (α : Type) where
  value : α
  notes : List String
  deriving Repr

namespace Noted

/-- A result without notes. -/
def of {α : Type} (a : α) : Noted α := ⟨a, []⟩

/-- One note. -/
def note (text : String) : Noted Unit := ⟨(), [text]⟩

instance : Monad Noted where
  pure := of
  bind x f := ⟨(f x.value).value, x.notes ++ (f x.value).notes⟩

/-- Applies a function to every item, one after the other, and keeps the results that are there;
the function is told the place of its item. -/
def filterMapFrom {α β : Type} (f : Nat → α → Noted (Option β)) : Nat → List α → Noted (List β)
  | _, [] => of []
  | i, a :: as =>
    let r := f i a
    let rs := filterMapFrom f (i + 1) as
    ⟨r.value.toList ++ rs.value, r.notes ++ rs.notes⟩

/-- Applies a function to every item and its place, and keeps the results that are there. -/
def filterMap {α β : Type} (f : Nat → α → Noted (Option β)) (as : List α) : Noted (List β) :=
  filterMapFrom f 0 as

@[simp] theorem pure_value {α : Type} (a : α) : (pure a : Noted α).value = a := rfl

@[simp] theorem pure_notes {α : Type} (a : α) : (pure a : Noted α).notes = [] := rfl

@[simp] theorem bind_value {α β : Type} (x : Noted α) (f : α → Noted β) :
    (x >>= f).value = (f x.value).value := rfl

@[simp] theorem bind_notes {α β : Type} (x : Noted α) (f : α → Noted β) :
    (x >>= f).notes = x.notes ++ (f x.value).notes := rfl

variable {α β γ : Type}

theorem map_id (x : Noted α) : id <$> x = x := by
  cases x
  simp [Functor.map, of]

theorem pure_bind' (a : α) (f : α → Noted β) : (pure a : Noted α) >>= f = f a := by
  cases h : f a
  simp [bind, pure, of, h]

theorem bind_assoc' (x : Noted α) (f : α → Noted β) (g : β → Noted γ) :
    x >>= f >>= g = x >>= fun a => f a >>= g := by
  simp [bind, List.append_assoc]

instance : LawfulMonad Noted := LawfulMonad.mk' _ map_id pure_bind' bind_assoc'

/-- If items that were made in one way all give a result, these are the results, in order. -/
theorem filterMap_map_value {f : Nat → β → Noted (Option γ)} {r : α → β} {g : α → γ}
    (h : ∀ i a, (f i (r a)).value = some (g a)) (as : List α) :
    (filterMap f (as.map r)).value = as.map g := by
  have hfrom : ∀ i, (filterMapFrom f i (as.map r)).value = as.map g := by
    induction as with
    | nil => exact fun _ => rfl
    | cons a as ih =>
        intro i
        change (f i (r a)).value.toList ++ (filterMapFrom f (i + 1) (as.map r)).value = _
        rw [h, ih, List.map_cons]
        rfl
  exact hfrom 0

theorem filterMap_value {f : Nat → α → Noted (Option β)} {r : α → β} {as : List α}
    (h : ∀ a ∈ as, ∀ i, (f i a).value = some (r a)) : (filterMap f as).value = as.map r := by
  have hfrom : ∀ i, (filterMapFrom f i as).value = as.map r := by
    induction as with
    | nil => exact fun _ => rfl
    | cons a as ih =>
        intro i
        change (f i a).value.toList ++ (filterMapFrom f (i + 1) as).value = _
        rw [h a List.mem_cons_self, ih fun b hb => h b (List.mem_cons_of_mem a hb)]
        rfl
  exact hfrom 0

/-- If exactly the items of one kind give a result, these are the results, in order. -/
theorem filterMap_value_filter {f : Nat → α → Noted (Option β)} {p : α → Bool} {r : α → β}
    (h : ∀ i a, (f i a).value = if p a then some (r a) else none) (as : List α) :
    (filterMap f as).value = (as.filter p).map r := by
  have hfrom : ∀ i, (filterMapFrom f i as).value = (as.filter p).map r := by
    induction as with
    | nil => exact fun _ => rfl
    | cons a as ih =>
        intro i
        change (f i a).value.toList ++ (filterMapFrom f (i + 1) as).value = _
        rw [h, ih]
        cases hp : p a
        · rw [List.filter_cons_of_neg (by simp [hp])]
          rfl
        · rw [List.filter_cons_of_pos hp, List.map_cons]
          rfl
  exact hfrom 0

theorem mem_filterMap {f : Nat → α → Noted (Option β)} {as : List α} {b : β}
    (h : b ∈ (filterMap f as).value) : ∃ a ∈ as, ∃ i, (f i a).value = some b := by
  have hfrom : ∀ i, b ∈ (filterMapFrom f i as).value →
      ∃ a ∈ as, ∃ i, (f i a).value = some b := by
    clear h
    induction as with
    | nil => exact fun _ h => absurd h List.not_mem_nil
    | cons a as ih =>
        intro i hb
        rcases List.mem_append.1 hb with hb | hb
        · exact ⟨a, List.mem_cons_self, i, Option.mem_toList.1 hb⟩
        · obtain ⟨a', ha', hi⟩ := ih (i + 1) hb
          exact ⟨a', List.mem_cons_of_mem a ha', hi⟩
  exact hfrom 0 h

/-! ## Results without notes -/

theorem eq_pure {x : Noted α} {a : α} (hvalue : x.value = a) (hnotes : x.notes = []) :
    x = pure a := by
  cases x
  cases hvalue
  cases hnotes
  rfl

/-- Something that is read without a note, whatever the notes would call its place. -/
def Quiet (f : String → Noted α) : Prop := ∃ a, ∀ place, f place = pure a

theorem Quiet.pure (a : α) : Quiet fun _ => (Pure.pure a : Noted α) := ⟨a, fun _ => rfl⟩

theorem Quiet.bind {f : String → Noted α} {g : α → String → Noted β} (hf : Quiet f)
    (hg : ∀ a, Quiet (g a)) : Quiet fun place => f place >>= fun a => g a place := by
  obtain ⟨a, hf⟩ := hf
  obtain ⟨b, hg⟩ := hg a
  refine ⟨b, fun place => ?_⟩
  dsimp only
  rw [hf, pure_bind, hg]

theorem filterMap_quiet {f : Nat → β → Noted (Option γ)} {e : α → β} {r : α → γ} {as : List α}
    (h : ∀ a ∈ as, ∀ i, f i (e a) = pure (some (r a))) :
    filterMap f (as.map e) = pure (as.map r) := by
  have hfrom : ∀ i, filterMapFrom f i (as.map e) = pure (as.map r) := by
    induction as with
    | nil => exact fun _ => rfl
    | cons a as ih =>
        intro i
        rw [List.map_cons, filterMapFrom, h a List.mem_cons_self,
          ih fun b hb => h b (List.mem_cons_of_mem a hb)]
        rfl
  exact hfrom 0

/-- If every item passes through two functions without a note, so does the list. -/
theorem filterMap_bind_quiet {δ : Type} {f : Nat → β → Noted (Option γ)}
    {g : Nat → γ → Noted (Option δ)} {e : α → β} {r : α → δ} {as : List α}
    (h : ∀ a ∈ as, ∀ i, ∃ c, f i (e a) = pure (some c) ∧ ∀ k, g k c = pure (some (r a))) :
    filterMap f (as.map e) >>= filterMap g = pure (as.map r) := by
  have hfrom : ∀ i k, filterMapFrom f i (as.map e) >>= filterMapFrom g k = pure (as.map r) := by
    induction as with
    | nil => exact fun _ _ => rfl
    | cons a as ih =>
        intro i k
        obtain ⟨c, hf, hg⟩ := h a List.mem_cons_self i
        have hrest := ih (fun b hb => h b (List.mem_cons_of_mem a hb)) (i + 1) (k + 1)
        have hnotes := congrArg Noted.notes hrest
        have hvalue := congrArg Noted.value hrest
        rw [bind_notes] at hnotes
        rw [bind_value] at hvalue
        have hfirst : filterMapFrom f i ((a :: as).map e) =
            ⟨c :: (filterMapFrom f (i + 1) (as.map e)).value,
              (filterMapFrom f (i + 1) (as.map e)).notes⟩ := by
          rw [List.map_cons, filterMapFrom, hf]
          rfl
        rw [hfirst]
        change Noted.mk _ _ = Noted.mk _ _
        rw [filterMapFrom, hg, hvalue]
        exact congrArg _ hnotes
  exact hfrom 0 0

end Noted

end ProxyFleet
