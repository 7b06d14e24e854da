import ProxyFleet.Inbound.File
import ProxyFleet.Proofs.Value.Order
import ProxyFleet.Proofs.Value.Reread
import ProxyFleet.Value.Field

/-!
# Values as reading leaves them

What is read from a text has no gaps, its numbers are doubles and its records are
in enumeration order (`Value.Settled`). Such a value, if it can be written as data
at all, is read back as itself: writing and reading have nothing left to change.

The reader keeps this along its whole way. It is a fold over tokens with a stack,
so the invariant speaks of everything on the stack and of the value just read.
-/

namespace ProxyFleet

namespace Value

mutual

/-- A value as reading leaves it. -/
def Settled : Value → Prop
  | .absent => False
  | .null | .bool _ | .str _ => True
  | .num n => n.IsDouble
  | .arr xs => AreSettled xs
  | .obj fs => Fields.InOrder fs ∧ AreFieldsSettled fs

/-- Every item is as reading leaves it. -/
def AreSettled : List Value → Prop
  | [] => True
  | x :: xs => Settled x ∧ AreSettled xs

/-- Every field is as reading leaves it. -/
def AreFieldsSettled : List (String × Value) → Prop
  | [] => True
  | (_, v) :: fs => Settled v ∧ AreFieldsSettled fs

end

theorem areSettled_iff {xs : List Value} : AreSettled xs ↔ ∀ x ∈ xs, x.Settled := by
  induction xs with
  | nil => simp [AreSettled]
  | cons x xs ih => simp [AreSettled, ih]

theorem areFieldsSettled_iff {fs : Fields} : AreFieldsSettled fs ↔ ∀ f ∈ fs, f.2.Settled := by
  induction fs with
  | nil => simp [AreFieldsSettled]
  | cons f fs ih =>
      obtain ⟨k, v⟩ := f
      simp only [AreFieldsSettled, ih, List.mem_cons, forall_eq_or_imp]

theorem settled_arr {xs : List Value} : (arr xs).Settled ↔ ∀ x ∈ xs, x.Settled := by
  rw [Settled, areSettled_iff]

theorem settled_obj {fs : Fields} :
    (obj fs).Settled ↔ Fields.InOrder fs ∧ ∀ f ∈ fs, f.2.Settled := by
  rw [Settled, areFieldsSettled_iff]

theorem Settled.ne_absent {v : Value} (h : v.Settled) : v ≠ .absent := by
  rintro rfl
  rw [Settled] at h
  exact h

/-- What is looked up in a record is as reading left it, if it is there. -/
theorem Settled.get {fs : Fields} (h : (obj fs).Settled) (n : String) :
    Fields.get fs n = .absent ∨ (Fields.get fs n).Settled :=
  (Fields.get_absent_or_mem fs n).imp_right ((settled_obj.1 h).2 _)

theorem settled_put {fs : Fields} (h : (obj fs).Settled) (n : String) {v : Value}
    (hv : v.Settled) : (obj (Fields.put fs n v)).Settled := by
  obtain ⟨horder, hfields⟩ := settled_obj.1 h
  refine settled_obj.2 ⟨horder.put n v, fun f hf => ?_⟩
  by_cases hn : f.1 = n
  · rw [Fields.put_holds hf hn]
    exact hv
  · exact hfields f (Fields.mem_of_mem_put hf hn)

/-! ## They are read back -/

theorem rereadFields_eq {fs : Fields} (h : ∀ f ∈ fs, f.2 ≠ .absent ∧ f.2.reread = f.2)
    (done : Fields) : rereadFields done fs = Fields.putAll done fs := by
  induction fs generalizing done with
  | nil => rw [rereadFields]; rfl
  | cons f fs ih =>
      obtain ⟨k, v⟩ := f
      obtain ⟨hpresent, hsame⟩ : v ≠ .absent ∧ v.reread = v := h (k, v) List.mem_cons_self
      have hfound : ¬v.isAbsent = true := by
        cases v <;> first | exact absurd rfl hpresent | exact Bool.false_ne_true
      rw [rereadFields, if_neg hfound, hsame, ih fun g hg => h g (List.mem_cons_of_mem _ hg)]
      rfl

mutual

/-- Data that was read once is read back as itself. -/
theorem Settled.reread : ∀ {v : Value}, v.Settled → v.isData = true → v.reread = v
  | .absent, h, _ => absurd rfl h.ne_absent
  | .null, _, _ | .bool _, _, _ | .str _, _, _ => by rw [Value.reread]
  | .num n, h, hdata => by
      rw [Settled] at h
      rw [isData] at hdata
      rw [Value.reread, Number.reread_eq h hdata]
  | .arr xs, h, hdata => by
      rw [Settled] at h
      rw [isData] at hdata
      rw [Value.reread, AreSettled.reread h hdata]
  | .obj fs, h, hdata => by
      rw [Settled] at h
      rw [isData] at hdata
      have hall := AreFieldsSettled.reread h.2 hdata
      have horder : Fields.InOrder ([] ++ fs) := h.1
      rw [Value.reread, rereadFields_eq hall, Fields.putAll_append horder, List.nil_append]

theorem AreSettled.reread : ∀ {xs : List Value}, AreSettled xs → areData xs = true →
    rereadItems xs = xs
  | [], _, _ => by rw [rereadItems]
  | x :: xs, h, hdata => by
      rw [AreSettled] at h
      rw [areData, Bool.and_eq_true] at hdata
      rw [rereadItems, h.1.reread hdata.1, AreSettled.reread h.2 hdata.2]

theorem AreFieldsSettled.reread : ∀ {fs : Fields}, AreFieldsSettled fs →
    areFieldsData fs = true → ∀ f ∈ fs, f.2 ≠ .absent ∧ f.2.reread = f.2
  | [], _, _ => nofun
  | (k, v) :: fs, h, hdata => by
      rw [AreFieldsSettled] at h
      rw [areFieldsData, Bool.and_eq_true] at hdata
      have hrest := AreFieldsSettled.reread h.2 hdata.2
      intro f hf
      rcases List.mem_cons.1 hf with rfl | hf
      · exact ⟨h.1.ne_absent, h.1.reread hdata.1⟩
      · exact hrest f hf

end

/-! ## Whole numbers -/

theorem ofLeadingDigits?_decimal {cs : List Char} {n : Number}
    (h : Number.ofLeadingDigits? cs = some n) :
    ∃ negative digits, n = Number.ofDecimal negative digits 0 := by
  unfold Number.ofLeadingDigits? at h
  dsimp only at h
  split at h
  · cases h
  · cases h
    exact ⟨_, _, rfl⟩

theorem wholeText?_decimal {cs : List Char} {n : Number} (h : wholeText? cs = some n) :
    ∃ negative digits, n = Number.ofDecimal negative digits 0 := by
  unfold wholeText? at h
  exact ofLeadingDigits?_decimal (Option.ite_none_right_eq_some.1 h).2

theorem asInt_str (s : String) : (str s).asInt = .finite 0 ∨
    ∃ negative digits, (str s).asInt = Number.ofDecimal negative digits 0 := by
  unfold asInt
  dsimp only
  cases hread : wholeText? s.toList with
  | none => exact .inl rfl
  | some n => exact .inr (wholeText?_decimal hread)

/-- A number picked out of a record is whole, if it is finite. -/
theorem isWhole_asInt {v : Value} (h : v.asInt.isFinite = true) : v.asInt.isWhole = true := by
  cases v with
  | num n =>
      unfold asInt at h ⊢
      dsimp only at h ⊢
      split
      · next hn => exact Number.isWhole_trunc hn
      · exact Number.isWhole_zero
  | str s =>
      obtain hzero | ⟨negative, digits, hdecimal⟩ := asInt_str s
      · rw [hzero]
        exact Number.isWhole_zero
      · rw [hdecimal] at h ⊢
        exact Number.isWhole_ofDecimal _ _ h
  | _ => exact Number.isWhole_zero

/-- A number picked out of what was read is a double. -/
theorem isDouble_asInt {v : Value} (h : v = .absent ∨ v.Settled) : v.asInt.IsDouble := by
  cases v with
  | num n =>
      have hn : n.IsDouble := by
        have := h.resolve_left nofun
        rwa [Settled] at this
      unfold asInt
      dsimp only
      split
      · exact hn.trunc
      · exact Number.isDouble_zero
  | str s =>
      obtain hzero | ⟨negative, digits, hdecimal⟩ := asInt_str s
      · rw [hzero]
        exact Number.isDouble_zero
      · rw [hdecimal]
        exact Number.isDouble_ofDecimal _ _ _
  | _ => exact Number.isDouble_zero

/-- A whole number is picked out as it is. -/
theorem asInt_num {n : Number} (h : n.isWhole = true) : (num n).asInt = n := by
  unfold asInt
  dsimp only
  rw [if_pos (Number.isWhole_isFinite h), Number.trunc_eq_self h]

end Value

/-! ## Tokens -/

/-- A step that keeps an invariant keeps it along a whole list. -/
theorem foldlM_keeps {σ τ : Type} {step : σ → τ → Option σ} {P : σ → Prop} {Q : τ → Prop}
    (hstep : ∀ s t s', P s → Q t → step s t = some s' → P s') {ts : List τ}
    (hts : ∀ t ∈ ts, Q t) {s s' : σ} (hs : P s) (h : ts.foldlM step s = some s') : P s' := by
  induction ts generalizing s with
  | nil =>
      cases h
      exact hs
  | cons t ts ih =>
      rw [List.foldlM_cons] at h
      obtain ⟨s'', hfirst, hrest⟩ := Option.bind_eq_some_iff.1 h
      exact ih (fun t ht => hts t (List.mem_cons_of_mem _ ht))
        (hstep _ _ _ hs (hts t List.mem_cons_self) hfirst) hrest

namespace Token

/-- A token whose value, if it has one, is as reading leaves it. -/
def Settled : Token → Prop
  | .scalar v => v.Settled
  | _ => True

theorem start_settled {done : List Token} {c : Char} {s : Scan}
    (hdone : ∀ t ∈ done, t.Settled) (h : start done c = some s) : ∀ t ∈ s.done, t.Settled := by
  have hcons : ∀ {t : Token}, t.Settled → ∀ u ∈ t :: done, u.Settled := by
    intro t ht u hu
    rcases List.mem_cons.1 hu with rfl | hu
    · exact ht
    · exact hdone u hu
  have hbracket : ∀ {t : Token} {s : Scan}, some (Scan.mk .between (t :: done)) = some s →
      t.Settled → ∀ t ∈ s.done, t.Settled := by
    rintro t s h ht
    cases h
    exact hcons ht
  unfold start at h
  split at h
  · cases h
    exact hdone
  -- the six characters that are tokens, then the beginnings of longer ones
  iterate 6
    split at h
    · exact hbracket h trivial
  iterate 3
    split at h
    · cases h
      exact hdone
  cases h

theorem settled_number {cs : List Char} {n : Number} (h : Number.ofLexeme? cs = some n) :
    (Token.scalar (.num n)).Settled := by
  change (Value.num n).Settled
  rw [Value.Settled]
  exact Number.isDouble_ofLexeme? h

theorem settled_word {w : List Char} {v : Value} (h : wordValue? w = some v) :
    (Token.scalar v).Settled := by
  change v.Settled
  unfold wordValue? at h
  split at h
  · cases h
    rw [Value.Settled]
    trivial
  · split at h
    · cases h
      rw [Value.Settled]
      trivial
    · split at h
      · cases h
        rw [Value.Settled]
        trivial
      · cases h

theorem step_settled {s s' : Scan} {c : Char} (hs : ∀ t ∈ s.done, t.Settled)
    (h : step s c = some s') : ∀ t ∈ s'.done, t.Settled := by
  have hcons : ∀ {t : Token}, t.Settled → ∀ u ∈ t :: s.done, u.Settled := by
    intro t ht u hu
    rcases List.mem_cons.1 hu with rfl | hu
    · exact ht
    · exact hs u hu
  unfold step at h
  split at h
  · exact start_settled hs h
  · split at h
    · cases h
      exact hs
    · obtain ⟨n, hn, hstart⟩ := Option.bind_eq_some_iff.1 h
      exact start_settled (hcons (settled_number hn)) hstart
  · split at h
    · cases h
      exact hs
    · obtain ⟨v, hv, hstart⟩ := Option.bind_eq_some_iff.1 h
      exact start_settled (hcons (settled_word hv)) hstart
  · split at h
    · cases h
      exact hcons trivial
    · split at h
      · cases h
        exact hs
      · split at h
        · cases h
        · cases h
          exact hs
  · split at h
    · cases h
      exact hs
    · obtain ⟨e, -, rfl⟩ := Option.map_eq_some_iff.1 h
      exact hs
  · obtain ⟨d, -, rfl⟩ := Option.map_eq_some_iff.1 h
    split <;> exact hs

theorem scan_settled {cs : List Char} {ts : List Token} (h : scan cs = some ts) :
    ∀ t ∈ ts, t.Settled := by
  obtain ⟨s, hscan, hfinish⟩ := Option.bind_eq_some_iff.1 h
  have hdone : ∀ t ∈ s.done, t.Settled :=
    foldlM_keeps (P := fun s => ∀ t ∈ s.done, t.Settled) (Q := fun _ => True)
      (fun _ _ _ hs _ => step_settled hs) (fun _ _ => trivial) nofun hscan
  obtain ⟨us, hus, rfl⟩ := Option.map_eq_some_iff.1 hfinish
  intro t ht
  have ht := List.mem_reverse.1 ht
  unfold finish at hus
  split at hus
  · cases hus
    exact hdone t ht
  · obtain ⟨n, hn, rfl⟩ := Option.map_eq_some_iff.1 hus
    rcases List.mem_cons.1 ht with rfl | ht
    · exact settled_number hn
    · exact hdone t ht
  · obtain ⟨v, hv, rfl⟩ := Option.map_eq_some_iff.1 hus
    rcases List.mem_cons.1 ht with rfl | ht
    · exact settled_word hv
    · exact hdone t ht
  all_goals cases hus

end Token

/-! ## The reader -/

namespace Reader

/-- An array or record that is still open, with what it holds so far as reading leaves it. -/
def Open.Settled : Open → Prop
  | .array done => ∀ v ∈ done, v.Settled
  | .record done | .field done _ => (Value.obj done).Settled

/-- A state of the reader in which everything read so far is as reading leaves it. -/
structure State.Settled (s : State) : Prop where
  stack : ∀ o ∈ s.stack, o.Settled
  after : ∀ v, s.expect = .after v → v.Settled

theorem settled_push {stack : List Open} {o : Open} {e : Expect} (hstack : ∀ o ∈ stack, o.Settled)
    (ho : o.Settled) (he : ∀ v, e ≠ .after v) : State.Settled ⟨o :: stack, e⟩ := by
  refine ⟨fun o' ho' => ?_, fun v hv => absurd hv (he v)⟩
  rcases List.mem_cons.1 ho' with rfl | ho'
  · exact ho
  · exact hstack o' ho'

theorem settled_after {stack : List Open} {v : Value} (hstack : ∀ o ∈ stack, o.Settled)
    (hv : v.Settled) : State.Settled ⟨stack, .after v⟩ := by
  refine ⟨hstack, fun w hw => ?_⟩
  cases hw
  exact hv

theorem stepValue_settled {stack : List Open} {t : Token} {s : State}
    (hstack : ∀ o ∈ stack, o.Settled) (ht : t.Settled) (h : stepValue stack t = some s) :
    s.Settled := by
  unfold stepValue at h
  split at h
  · cases h
    exact settled_after hstack ht
  · cases h
    exact settled_after hstack (by rw [Value.Settled]; trivial)
  · cases h
    exact settled_push hstack nofun nofun
  · cases h
    exact settled_push hstack (Value.settled_obj.2 ⟨List.Pairwise.nil, nofun⟩) nofun
  · cases h

theorem step_settled {s s' : State} {t : Token} (hs : s.Settled) (ht : t.Settled)
    (h : step s t = some s') : s'.Settled := by
  obtain ⟨stack, e⟩ := s
  obtain ⟨hstack, hafter⟩ := hs
  dsimp only at hstack hafter
  unfold step at h
  dsimp only at h
  split at h
  · -- a value begins
    exact stepValue_settled hstack ht h
  · -- an array without items closes
    cases h
    obtain ⟨hdone, hrest⟩ := List.forall_mem_cons.1 hstack
    exact settled_after hrest (Value.settled_arr.2 fun v hv => hdone v (List.mem_reverse.1 hv))
  · exact stepValue_settled hstack ht h
  · -- a record without fields closes
    cases h
    obtain ⟨hdone, hrest⟩ := List.forall_mem_cons.1 hstack
    exact settled_after hrest hdone
  · -- names and colons leave the values alone
    cases h
    exact ⟨hstack, nofun⟩
  · cases h
    exact ⟨hstack, nofun⟩
  · cases h
    obtain ⟨hdone, hrest⟩ := List.forall_mem_cons.1 hstack
    exact settled_push hrest hdone nofun
  · -- the value just read is an item
    next v done st =>
      cases h
      obtain ⟨hdone, hrest⟩ := List.forall_mem_cons.1 hstack
      exact settled_push hrest (List.forall_mem_cons.2 ⟨hafter v rfl, hdone⟩) nofun
  · next v done st =>
      cases h
      obtain ⟨hdone, hrest⟩ := List.forall_mem_cons.1 hstack
      refine settled_after hrest (Value.settled_arr.2 fun w hw => ?_)
      exact List.forall_mem_cons.2 ⟨hafter v rfl, hdone⟩ w (List.mem_reverse.1 hw)
  · -- it is a field
    next v done k st =>
      cases h
      obtain ⟨hdone, hrest⟩ := List.forall_mem_cons.1 hstack
      exact settled_push hrest (Value.settled_put hdone k (hafter v rfl)) nofun
  · next v done k st =>
      cases h
      obtain ⟨hdone, hrest⟩ := List.forall_mem_cons.1 hstack
      exact settled_after hrest (Value.settled_put hdone k (hafter v rfl))
  · cases h

theorem ofTokens?_settled {ts : List Token} {v : Value} (hts : ∀ t ∈ ts, t.Settled)
    (h : ofTokens? ts = some v) : v.Settled := by
  obtain ⟨s, hrun, hfinish⟩ := Option.bind_eq_some_iff.1 h
  have hstart : State.Settled ⟨[], .value⟩ := ⟨nofun, nofun⟩
  have hs := foldlM_keeps (P := State.Settled) (Q := Token.Settled)
    (fun _ _ _ => step_settled) hts hstart hrun
  unfold finish at hfinish
  split at hfinish
  · cases hfinish
    exact hs.after v rfl
  · cases hfinish

end Reader

/-- What is read from a text is as reading leaves it. -/
theorem Value.ofCommentedText?_settled {s : String} {v : Value}
    (h : Value.ofCommentedText? s = some v) : v.Settled := by
  obtain ⟨ts, hscan, hread⟩ := Option.bind_eq_some_iff.1 h
  exact Reader.ofTokens?_settled (Token.scan_settled hscan) hread

/-- The listeners of a file are as reading left them. -/
theorem ConfigFile.elements_settled {e : Engine} {file text : String} {els : List Value}
    (h : elements e file text = .ok els) : ∀ el ∈ els, el.Settled := by
  unfold elements at h
  split at h
  · cases h
  · next xs hread =>
      cases h
      exact Value.settled_arr.1 (Value.ofCommentedText?_settled hread)
  · next fs hread =>
      have hfs := Value.ofCommentedText?_settled hread
      split at h
      · cases h
        exact nofun
      · next xs hxs =>
          cases h
          have hget := (hfs.get "inbounds").resolve_left (by rw [hxs]; nofun)
          rw [hxs] at hget
          exact Value.settled_arr.1 hget
      · cases h
  · cases h

end ProxyFleet
