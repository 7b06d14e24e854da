import ProxyFleet.Proofs.Value.Fields
import ProxyFleet.Proofs.Value.Spelling
import ProxyFleet.Value.Field

/-!
# Written values are read back

What a written value is read back as is almost the value itself (`Value.reread`):
absent items come back as null, absent fields not at all, and the fields of a
record are put one after the other. A field that all its namesakes agree on is
found again under its name.
-/

namespace ProxyFleet

/-! ## Values read back -/

mutual

/-- The value a written value is read back as. -/
def Value.reread : Value → Value
  | .absent => .null
  | .null => .null
  | .bool b => .bool b
  | .num n => n.reread
  | .str s => .str s
  | .arr xs => .arr (Value.rereadItems xs)
  | .obj fs => .obj (Value.rereadFields [] fs)

/-- The items a written array is read back with. -/
def Value.rereadItems : List Value → List Value
  | [] => []
  | x :: xs => x.reread :: Value.rereadItems xs

/-- The fields a written record is read back with, put one after the other. -/
def Value.rereadFields (done : Fields) : Fields → Fields
  | [] => done
  | (k, v) :: fs =>
    if v.isAbsent then Value.rereadFields done fs
    else Value.rereadFields (Fields.put done k v.reread) fs

end

namespace Reader

theorem tokens_begin (v : Value) : ∃ t ts, v.tokens = t :: ts ∧ ∀ st,
    step ⟨st, .itemOrClose⟩ t = step ⟨st, .value⟩ t := by
  cases v with
  | arr xs => cases xs <;> exact ⟨_, _, by rw [Value.tokens], fun _ => rfl⟩
  | _ => exact ⟨_, _, by rw [Value.tokens], fun _ => rfl⟩

/-- Where an array may be closed, a value is read as it is elsewhere. -/
theorem itemOrClose_eq (v : Value) (st : List Open) :
    v.tokens.foldlM step ⟨st, .itemOrClose⟩ = v.tokens.foldlM step ⟨st, .value⟩ := by
  obtain ⟨t, ts, htokens, hstep⟩ := tokens_begin v
  rw [htokens, List.foldlM_cons, List.foldlM_cons, hstep]

mutual

/-- The tokens of a value are read as the value read back. -/
theorem tokens_read (st : List Open) :
    ∀ v : Value, v.tokens.foldlM step ⟨st, .value⟩ = some ⟨st, .after v.reread⟩
  | .absent | .null | .bool _ | .num _ | .str _ => by
      rw [Value.tokens, Value.reread]
      rfl
  | .arr [] => by
      rw [Value.tokens, Value.reread, Value.rereadItems]
      rfl
  | .arr (x :: xs) => by
      have hitem := tokens_read (.array [] :: st) x
      have hitems := items_read st [] x.reread xs
      rw [Value.tokens, Value.reread, Value.rereadItems]
      change List.foldlM step ⟨.array [] :: st, .itemOrClose⟩ _ = _
      rw [List.append_assoc, List.foldlM_append, itemOrClose_eq, hitem]
      exact hitems
  | .obj fs => by
      rw [Value.tokens, Value.reread]
      obtain ⟨hnone, hfields⟩ | ⟨ts, htokens, hread⟩ := fields_read st [] fs
      · rw [hnone, hfields]
        rfl
      · rw [htokens]
        exact hread .nameOrClose (.inr rfl)

theorem items_read (st : List Open) (done : List Value) (v : Value) : ∀ xs : List Value,
    (Value.itemTokens xs ++ [Token.closeArray]).foldlM step ⟨.array done :: st, .after v⟩ =
      some ⟨st, .after (.arr (done.reverse ++ v :: Value.rereadItems xs))⟩
  | [] => by
      rw [Value.itemTokens, Value.rereadItems, ← List.reverse_cons]
      rfl
  | x :: xs => by
      have hitem := tokens_read (.array (v :: done) :: st) x
      have hitems := items_read st (v :: done) x.reread xs
      rw [Value.itemTokens, Value.rereadItems]
      change List.foldlM step ⟨.array (v :: done) :: st, .value⟩
        (x.tokens ++ Value.itemTokens xs ++ [.closeArray]) = _
      rw [List.reverse_cons, List.append_assoc] at hitems
      rw [List.append_assoc, List.foldlM_append, hitem]
      exact hitems

/-- The fields that are there are read, wherever a name may stand. -/
theorem fields_read (st : List Open) (done : Fields) : ∀ fs : Fields,
    (Value.fieldTokens fs = [] ∧ Value.rereadFields done fs = done) ∨
      ∃ ts, Value.fieldTokens fs = .comma :: ts ∧ ∀ e : Expect, e = .name ∨ e = .nameOrClose →
        (ts ++ [Token.closeRecord]).foldlM step ⟨.record done :: st, e⟩ =
          some ⟨st, .after (.obj (Value.rereadFields done fs))⟩
  | [] => .inl ⟨by rw [Value.fieldTokens], by rw [Value.rereadFields]⟩
  | (k, v) :: fs => by
      have hvalue := tokens_read (.field done k :: st) v
      have hskipped := fields_read st done fs
      have hfields := fields_read st (Fields.put done k v.reread) fs
      rw [Value.fieldTokens, Value.rereadFields]
      split
      · exact hskipped
      · refine .inr ⟨_, rfl, fun e he => ?_⟩
        have hname : List.foldlM step ⟨.record done :: st, e⟩
            (.text k :: .colon :: (v.tokens ++ Value.fieldTokens fs) ++ [.closeRecord]) =
            List.foldlM step ⟨.field done k :: st, .value⟩
              (v.tokens ++ (Value.fieldTokens fs ++ [.closeRecord])) := by
          rw [← List.append_assoc]
          rcases he with rfl | rfl <;> rfl
        rw [hname, List.foldlM_append, hvalue]
        obtain ⟨hnone, hsame⟩ | ⟨ts, htokens, hread⟩ := hfields
        · rw [hnone, hsame]
          rfl
        · rw [htokens]
          exact hread .name (.inl rfl)

end

end Reader

/-- A text that spells the tokens of a value is read as the value read back. -/
theorem Value.ofChars?_spells {cs : List Char} {v : Value} (h : Token.Spells cs v.tokens) :
    ofChars? cs = some v.reread := by
  rw [ofChars?, h.scan]
  change (v.tokens.foldlM Reader.step ⟨[], .value⟩).bind Reader.finish = _
  rw [Reader.tokens_read]
  rfl

/-- A written value is read back, whatever its layout. -/
theorem Value.ofText?_written (l : Layout) (depth : Nat) (v : Value) :
    ofText? (String.ofList (Printer.value l depth v)) = some v.reread := by
  rw [ofText?, String.toList_ofList]
  exact ofChars?_spells (Printer.value_spells l depth v)

theorem Value.ofCommentedText?_written (l : Layout) (depth : Nat) (v : Value) :
    ofCommentedText? (String.ofList (Printer.value l depth v)) = some v.reread := by
  rw [ofCommentedText?_value]
  exact ofChars?_spells (Printer.value_spells l depth v)

theorem firstText_empty (s : String) : firstText s "" = s := by
  unfold firstText
  split
  · next h => exact h.symm
  · rfl

theorem firstText_again (a b : String) : firstText (firstText a b) b = firstText a b := by
  unfold firstText
  split
  · split <;> rfl
  · rfl

/-! ## Looking up what was read back -/

namespace Value

theorem rereadItems_eq_map (xs : List Value) : rereadItems xs = xs.map reread := by
  induction xs with
  | nil => rw [rereadItems, List.map_nil]
  | cons x xs ih => rw [rereadItems, List.map_cons, ih]

theorem asText_reread (v : Value) : v.reread.asText = v.asText := by
  have hnumber : ∀ o : Option Number, (ofOption num o).asText = "" := by
    rintro (_ | n) <;> rfl
  cases v with
  | num n =>
      rw [reread, Number.reread]
      split
      · exact hnumber _
      · rfl
  | _ => rw [reread] <;> rfl

end Value

/-- A value that tells something, and so is written where only such values are. -/
def Value.tells : Value → Bool
  | .absent => false
  | .str s => s != ""
  | .arr xs => !xs.isEmpty
  | _ => true

/-- What is left of a value where only those that tell something are written. -/
def Value.told (v : Value) : Value := if v.tells then v else .absent

theorem Value.asText_told (v : Value) : v.told.asText = v.asText := by
  unfold told
  split
  · rfl
  · next htells =>
      cases v with
      | str s =>
          have hempty : s = "" := by simpa [tells] using htells
          rw [hempty]
          rfl
      | _ => rfl

namespace Fields

variable {fs : Fields} {n : String} {v : Value}

theorem compact_eq_filter (fs : Fields) : compact fs = fs.filter (·.2.tells) := rfl

theorem get_rereadFields (hv : v ≠ .absent) (hagree : ∀ f ∈ fs, f.1 = n → f.2 = v)
    {done : Fields} (h : has fs n = true ∨ get done n = v.reread) :
    get (Value.rereadFields done fs) n = v.reread := by
  induction fs generalizing done with
  | nil =>
      rw [Value.rereadFields]
      exact h.resolve_left Bool.false_ne_true
  | cons f fs ih =>
      obtain ⟨k, w⟩ := f
      have hrest : k ≠ n → has fs n = true ∨ get done n = v.reread := by
        intro hk
        refine h.imp_left fun hhas => ?_
        change (k == n || has fs n) = true at hhas
        rwa [beq_eq_false_iff_ne.2 hk] at hhas
      have hagree' : ∀ f ∈ fs, f.1 = n → f.2 = v := fun f hf => hagree f (List.mem_cons_of_mem _ hf)
      rw [Value.rereadFields]
      by_cases hk : k = n
      · have hw : w = v := hagree _ List.mem_cons_self hk
        have hpresent : ¬v.isAbsent = true := by
          cases v <;> first | exact absurd rfl hv | exact Bool.false_ne_true
        rw [hw, if_neg hpresent, hk]
        exact ih hagree' (.inr (get_put_self done n _))
      · split
        · exact ih hagree' (hrest hk)
        · exact ih hagree' ((hrest hk).imp_right fun h =>
            (get_put_of_ne done _ (Ne.symm hk)).trans h)

theorem get_rereadFields_absent (hagree : ∀ f ∈ fs, f.1 = n → f.2 = .absent) (done : Fields) :
    get (Value.rereadFields done fs) n = get done n := by
  induction fs generalizing done with
  | nil => rw [Value.rereadFields]
  | cons f fs ih =>
      obtain ⟨k, w⟩ := f
      have ih := ih fun f hf => hagree f (List.mem_cons_of_mem _ hf)
      rw [Value.rereadFields]
      split
      · exact ih done
      · next hpresent =>
          have hk : k ≠ n := fun hk => by
            have hw : w = .absent := hagree _ List.mem_cons_self hk
            exact hpresent (by rw [hw]; rfl)
          exact (ih _).trans (get_put_of_ne done _ hk.symm)

theorem Holds.reread (h : Holds fs n v) (hv : v ≠ .absent) :
    get (Value.rereadFields [] fs) n = v.reread :=
  get_rereadFields hv h.agree (.inl (h.there hv))

theorem Holds.textOf_reread (h : Holds fs n v) :
    textOf (Value.rereadFields [] fs) n = v.asText := by
  rw [textOf]
  by_cases hv : v = .absent
  · subst hv
    rw [get_rereadFields_absent h.agree]
    rfl
  · rw [h.reread hv, Value.asText_reread]

/-- A field that tells nothing is left out, and then no field of its name is left. -/
theorem Holds.compact (h : Holds fs n v) : Holds (compact fs) n v.told := by
  rw [compact_eq_filter]
  refine ⟨fun f hf hn => ?_, fun hpresent => ?_⟩
  · obtain ⟨hf, htells⟩ := List.mem_filter.1 hf
    have hv := h.agree f hf hn
    rw [hv] at htells ⊢
    exact (if_pos htells).symm
  · have htells : v.tells = true := Decidable.byContradiction fun hnot => hpresent (if_neg hnot)
    have hthere : v ≠ .absent := by
      rintro rfl
      exact hpresent rfl
    obtain ⟨f, hf, hn⟩ := List.any_eq_true.1 (h.there hthere)
    have hv := h.agree f hf (beq_iff_eq.1 hn)
    exact List.any_eq_true.2 ⟨f, List.mem_filter.2 ⟨hf, hv.symm ▸ htells⟩, hn⟩

/-- A text of a record that was written without empty fields, empty or not. -/
theorem textOf_written (h : (fs.map Prod.fst).Nodup) (n : String) :
    textOf (Value.rereadFields [] (compact fs)) n = (get fs n).asText := by
  rw [(Holds.get_of_nodup h n).compact.textOf_reread, Value.asText_told]

theorem itemsField_eq_compact (n : String) (xs : List Value) :
    itemsField n xs = compact [(n, .arr xs)] := by
  cases xs <;> rfl

theorem holds_itemsField (n : String) (xs : List Value) :
    Holds (itemsField n xs) n (Value.arr xs).told := by
  have hsingle : Holds [(n, Value.arr xs)] n (.arr xs) :=
    ⟨fun f hf _ => by rw [List.mem_singleton.1 hf],
      fun _ => List.any_eq_true.2 ⟨_, List.mem_singleton_self _, beq_self_eq_true n⟩⟩
  rw [itemsField_eq_compact]
  exact hsingle.compact

theorem has_itemsField {m : String} (h : m ≠ n) (xs : List Value) :
    has (itemsField n xs) m = false := by
  cases xs with
  | nil => rfl
  | cons x xs => exact has_cons_of_ne h _ []

/-- An array that is only written with items in it is read back as one without. -/
theorem get_told_array {xs : List Value} (h : Holds fs n (Value.arr xs).told) :
    get (Value.rereadFields [] fs) n = (Value.arr (xs.map Value.reread)).told := by
  cases xs with
  | nil => exact get_rereadFields_absent h.agree []
  | cons x xs =>
      refine (h.reread nofun).trans ?_
      change Value.reread (.arr (x :: xs)) = _
      rw [Value.reread, Value.rereadItems_eq_map]
      rfl

end Fields

end ProxyFleet
