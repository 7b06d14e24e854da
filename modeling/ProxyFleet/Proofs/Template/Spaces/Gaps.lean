import ProxyFleet.Template.Lexeme
import ProxyFleet.Template.Render
import Mathlib.Data.List.Basic

/-!
# Where spaces are put

The pass that sets expressions apart from braces behind them looks for braces and nothing else.
All it can do is put single spaces between two closing braces and a third one. To follow them
through the scanner, every character of a text is marked with whether a space is put before it
(`Marked`). The text as it was and the text with its spaces are then two readings of one list.

What the scanner asks of the text still to come has the same answer for both, as long as it does
not ask for closing braces.
-/

namespace ProxyFleet

namespace Template

/-- The characters of a text, each with whether a space is put before it. -/
abbrev Marked := List (Char × Bool)

namespace Marked

/-- The text without the spaces. -/
def chars (ms : Marked) : List Char := ms.map Prod.fst

/-- The text with the spaces. -/
def spread : Marked → List Char
  | [] => []
  | (c, true) :: ms => ' ' :: c :: spread ms
  | (c, false) :: ms => c :: spread ms

/-- No space is put anywhere. -/
def clear (ms : Marked) : Bool := ms.all fun m => !m.2

/-- Behind a text (`before`, the nearest character first), spaces are put only between two closing
braces and a third one. -/
def Sound : List Char → Marked → Prop
  | _, [] => True
  | before, (c, gap) :: ms =>
    (gap = true → c = '}' ∧ ∃ rest, before = '}' :: '}' :: rest) ∧ Sound (c :: before) ms

/-- A space before the first character, if that is a closing brace. -/
def gapFirst : Marked → Marked
  | ('}', _) :: ms => ('}', true) :: ms
  | ms => ms

variable {ms ns : Marked} {before : List Char} {c : Char} {gap : Bool} {n : Nat}

@[simp] theorem chars_nil : chars [] = [] := rfl

@[simp] theorem chars_cons : chars ((c, gap) :: ms) = c :: chars ms := rfl

@[simp] theorem chars_append : chars (ms ++ ns) = chars ms ++ chars ns := List.map_append

@[simp] theorem chars_take : chars (ms.take n) = (chars ms).take n := List.map_take

@[simp] theorem chars_drop : chars (ms.drop n) = (chars ms).drop n := List.map_drop

@[simp] theorem length_chars : (chars ms).length = ms.length := List.length_map _

@[simp] theorem spread_nil : spread [] = [] := rfl

@[simp] theorem spread_gap : spread ((c, true) :: ms) = ' ' :: c :: spread ms := rfl

@[simp] theorem spread_close : spread ((c, false) :: ms) = c :: spread ms := rfl

@[simp] theorem spread_append : spread (ms ++ ns) = spread ms ++ spread ns := by
  induction ms with
  | nil => rfl
  | cons m ms ih =>
      obtain ⟨c, _ | _⟩ := m
      · exact congrArg (c :: ·) ih
      · exact congrArg (' ' :: c :: ·) ih

theorem length_le_spread (ms : Marked) : ms.length ≤ (spread ms).length := by
  induction ms with
  | nil => exact Nat.le_refl 0
  | cons m ms ih =>
      obtain ⟨c, _ | _⟩ := m
      · exact Nat.succ_le_succ ih
      · exact Nat.le_succ_of_le (Nat.succ_le_succ ih)

theorem spread_eq_nil {ms : Marked} : spread ms = [] ↔ ms = [] := by
  constructor
  · intro h
    have hle := length_le_spread ms
    rw [h] at hle
    exact List.eq_nil_of_length_eq_zero (Nat.le_zero.1 hle)
  · rintro rfl
    rfl

@[simp] theorem clear_nil : clear [] = true := rfl

@[simp] theorem clear_cons : clear ((c, gap) :: ms) = (!gap && clear ms) := rfl

/-- A text without any space put into it. -/
def unmarked (cs : List Char) : Marked := cs.map (·, false)

@[simp] theorem chars_unmarked (cs : List Char) : chars (unmarked cs) = cs := by
  rw [chars, unmarked, List.map_map]
  exact List.map_id _

@[simp] theorem spread_unmarked (cs : List Char) : spread (unmarked cs) = cs := by
  induction cs with
  | nil => rfl
  | cons c cs ih => exact congrArg (c :: ·) ih

/-- Where no space is put, the two texts begin with the same characters. -/
theorem spread_take_drop (h : clear (ms.take n) = true) :
    (spread ms).take n = (chars ms).take n ∧ (spread ms).drop n = spread (ms.drop n) := by
  induction n generalizing ms with
  | zero => exact ⟨rfl, rfl⟩
  | succ n ih =>
      cases ms with
      | nil => exact ⟨rfl, rfl⟩
      | cons m ms =>
          obtain ⟨c, _ | _⟩ := m
          · obtain ⟨htake, hdrop⟩ := @ih ms h
            exact ⟨congrArg (c :: ·) htake, hdrop⟩
          · cases h

theorem clear_take_drop {m n : Nat} (h : clear (ms.take (m + n)) = true) :
    clear (ms.take m) = true ∧ clear ((ms.drop m).take n) = true := by
  rw [List.take_add, clear, List.all_append, Bool.and_eq_true] at h
  exact h

namespace Sound

theorem nil : Sound before [] := trivial

theorem tail (h : Sound before ((c, gap) :: ms)) : Sound (c :: before) ms := h.2

/-- Only before a closing brace a space is put. -/
theorem gap_eq_false (h : Sound before ((c, gap) :: ms)) (hc : c ≠ '}') : gap = false := by
  cases gap with
  | false => rfl
  | true => exact absurd (h.1 rfl).1 hc

/-- Only behind a closing brace a space is put. -/
theorem gap_eq_false_of_head (h : Sound before ((c, gap) :: ms)) (hb : before.head? ≠ some '}') :
    gap = false := by
  cases gap with
  | false => rfl
  | true =>
      obtain ⟨rest, rfl⟩ := (h.1 rfl).2
      exact absurd rfl hb

theorem unmarked (before cs : List Char) : Sound before (unmarked cs) := by
  induction cs generalizing before with
  | nil => exact nil
  | cons c cs ih => exact ⟨nofun, ih (c :: before)⟩

theorem of_head (h : Sound before ms) (hhead : (chars ms).head? = some c) (hc : c ≠ '}') :
    ∃ ns, ms = (c, false) :: ns := by
  cases ms with
  | nil => cases hhead
  | cons m ns =>
      obtain ⟨d, gap⟩ := m
      cases Option.some.inj hhead
      exact ⟨ns, by rw [h.gap_eq_false hc]⟩

theorem take (h : Sound before ms) (n : Nat) : Sound before (ms.take n) := by
  induction n generalizing before ms with
  | zero => exact nil
  | succ n ih =>
      cases ms with
      | nil => exact nil
      | cons m ms => exact ⟨h.1, ih h.2⟩

theorem drop (h : Sound before ms) (n : Nat) :
    Sound ((chars (ms.take n)).reverse ++ before) (ms.drop n) := by
  induction n generalizing before ms with
  | zero => exact h
  | succ n ih =>
      cases ms with
      | nil => exact nil
      | cons m ms =>
          rw [List.take_succ_cons, chars_cons, List.reverse_cons, List.append_assoc]
          exact ih h.2

end Sound

end Marked

open Marked

/-! ## The pass -/

/-- The characters of a text, each with whether the pass puts a space before it. -/
def marked : BracePlace → List Char → Marked
  | _, [] => []
  | .text, '{' :: '{' :: cs => ('{', false) :: ('{', false) :: marked (openedBy cs) cs
  | .two, '}' :: '}' :: cs => ('}', false) :: ('}', false) :: gapFirst (marked .text cs)
  | .three, '}' :: '}' :: '}' :: cs =>
    ('}', false) :: ('}', false) :: ('}', false) :: marked .text cs
  | .comment, '-' :: '-' :: '}' :: '}' :: cs =>
    ('-', false) :: ('-', false) :: ('}', false) :: ('}', false) :: gapFirst (marked .text cs)
  | place, c :: cs => (c, false) :: marked place cs

theorem chars_gapFirst (ms : Marked) : chars (gapFirst ms) = chars ms := by
  unfold gapFirst
  split <;> rfl

theorem chars_marked (place : BracePlace) (cs : List Char) : chars (marked place cs) = cs := by
  induction place, cs using marked.induct <;> simp_all [marked, chars_gapFirst]

/-- The pass puts no space before the first character it meets. -/
theorem marked_cons (place : BracePlace) (c : Char) (cs : List Char) :
    ∃ ms, marked place (c :: cs) = (c, false) :: ms := by
  unfold marked
  split
  · next h => cases h
  all_goals
    next h =>
      cases h
      exact ⟨_, rfl⟩

/-- Before anything else than a closing brace the pass puts no space. -/
theorem gapFirst_marked {cs : List Char} (h : cs.head? ≠ some '}') :
    gapFirst (marked .text cs) = marked .text cs := by
  cases cs with
  | nil => rfl
  | cons c cs =>
      obtain ⟨ms, hms⟩ := marked_cons .text c cs
      rw [hms]
      unfold gapFirst
      split
      · next hcons => cases hcons; exact absurd rfl h
      · rfl

theorem spread_gapFirst (cs : List Char) :
    spread (gapFirst (marked .text cs)) = gapBefore cs ++ spread (marked .text cs) := by
  rw [gapBefore]
  split
  · next h =>
      obtain ⟨cs, rfl⟩ := List.head?_eq_some_iff.1 h
      obtain ⟨ms, hms⟩ := marked_cons .text '}' cs
      rw [hms]
      rfl
  · next h =>
      rw [gapFirst_marked h]
      rfl

theorem spread_marked (place : BracePlace) (cs : List Char) :
    spread (marked place cs) = separate place cs := by
  induction place, cs using marked.induct <;>
    simp_all [marked, separate, spread_gapFirst]

theorem Marked.Sound.gapFirst {ms : Marked} {rest : List Char}
    (h : Sound ('}' :: '}' :: rest) ms) : Sound ('}' :: '}' :: rest) (gapFirst ms) := by
  unfold Marked.gapFirst
  split
  · exact ⟨fun _ => ⟨rfl, rest, rfl⟩, h.2⟩
  · exact h

/-- What is not marked may stand anywhere. -/
theorem Marked.Sound.cons {before : List Char} {ms : Marked} {c : Char}
    (h : Sound (c :: before) ms) : Sound before ((c, false) :: ms) := ⟨nofun, h⟩

theorem sound_marked (place : BracePlace) (before cs : List Char) :
    Sound before (marked place cs) := by
  induction place, cs using marked.induct generalizing before with
  | case1 => exact .nil
  | case2 cs ih => exact .cons (.cons (ih _))
  | case3 cs ih => exact .cons (.cons (ih _).gapFirst)
  | case4 cs ih => exact .cons (.cons (.cons (ih _)))
  | case5 cs ih => exact .cons (.cons (.cons (.cons (ih _).gapFirst)))
  | case6 place c cs h₁ h₂ h₃ h₄ ih =>
      rw [marked]
      · exact .cons (ih _)
      all_goals assumption

namespace Lexeme

variable {ms : Marked} {before : List Char}

/-! ## Looking ahead -/

section Ahead

variable {p : List Char}

theorem eq_append_of_afterPrefix? {cs rest : List Char} (h : afterPrefix? p cs = some rest) :
    cs = p ++ rest := by
  induction p generalizing cs with
  | nil => exact Option.some.inj h
  | cons a p ih =>
      cases cs with
      | nil => cases h
      | cons c cs =>
          rw [afterPrefix?] at h
          split at h
          · next hac => exact congrArg₂ List.cons hac.symm (ih h)
          · cases h

theorem afterPrefix?_chars {rest : List Char} (h : afterPrefix? p (chars ms) = some rest) :
    rest = chars (ms.drop p.length) ∧ chars (ms.take p.length) = p := by
  have happend := eq_append_of_afterPrefix? h
  rw [chars_drop, chars_take, happend]
  exact ⟨List.drop_left.symm, List.take_left⟩

/-- A text without spaces in it begins there exactly if it did before and no space is put into
it. -/
theorem afterPrefix?_spread (hp : ' ' ∉ p) : afterPrefix? p (spread ms) =
    if clear (ms.take p.length) then
      (afterPrefix? p (chars ms)).map fun _ => spread (ms.drop p.length)
    else none := by
  induction p generalizing ms with
  | nil => rfl
  | cons a p ih =>
      obtain ⟨ha, hp⟩ := not_or.1 (mt List.mem_cons.2 hp)
      cases ms with
      | nil => rfl
      | cons m ms =>
          obtain ⟨c, _ | _⟩ := m
          · rw [spread_close, chars_cons, afterPrefix?, afterPrefix?]
            by_cases hac : a = c
            · rw [if_pos hac, if_pos hac, ih hp]
              rfl
            · rw [if_neg hac, if_neg hac]
              exact (ite_self _).symm
          · rw [spread_gap, afterPrefix?, if_neg (Ne.symm ha)]
            rfl

/-- Into a text without closing braces no space is put. -/
theorem clear_of_begins (hs : Sound before ms) (hp : '}' ∉ p) (h : begins p (chars ms) = true) :
    clear (ms.take p.length) = true := by
  induction p generalizing before ms with
  | nil => rfl
  | cons a p ih =>
      obtain ⟨ha, hp⟩ := not_or.1 (mt List.mem_cons.2 hp)
      cases ms with
      | nil => rfl
      | cons m ms =>
          obtain ⟨c, gap⟩ := m
          rw [begins, chars_cons, afterPrefix?] at h
          split at h
          · next hac =>
              rw [hs.gap_eq_false (hac ▸ Ne.symm ha)]
              exact ih hs.tail hp h
          · cases h

/-- Behind a text without closing braces the two texts go on alike. -/
theorem behind_text (hs : Sound before ms) (hp : '}' ∉ p) (h : begins p (chars ms) = true) :
    (spread ms).drop p.length = spread (ms.drop p.length) ∧
      Sound (p.reverse ++ before) (ms.drop p.length) := by
  obtain ⟨rest, hrest⟩ := Option.isSome_iff_exists.1 h
  have hsound := hs.drop p.length
  rw [(afterPrefix?_chars hrest).2] at hsound
  exact ⟨(spread_take_drop (clear_of_begins hs hp h)).2, hsound⟩

theorem begins_spread (hp : ' ' ∉ p) :
    begins p (spread ms) = (begins p (chars ms) && clear (ms.take p.length)) := by
  rw [begins, begins, afterPrefix?_spread hp]
  cases clear (ms.take p.length) <;> simp

/-- What has neither spaces nor closing braces begins where it did. -/
theorem begins_spread_eq (hs : Sound before ms) (hp : ' ' ∉ p) (hp' : '}' ∉ p) :
    begins p (spread ms) = begins p (chars ms) := by
  rw [begins_spread hp]
  cases h : begins p (chars ms) with
  | false => rfl
  | true => exact clear_of_begins hs hp' h

theorem afterPrefix?_spread_eq (hs : Sound before ms) (hp : ' ' ∉ p) (hp' : '}' ∉ p) :
    afterPrefix? p (spread ms) =
      (afterPrefix? p (chars ms)).map fun _ => spread (ms.drop p.length) := by
  rw [afterPrefix?_spread hp]
  split
  · rfl
  · next h =>
      cases hafter : afterPrefix? p (chars ms) with
      | none => rfl
      | some rest => exact absurd (clear_of_begins hs hp' (by rw [begins, hafter]; rfl)) h

/-- Whoever does not tell a space from a closing brace sees no difference. -/
theorem head_any_spread {f : Char → Bool} (hs : Sound before ms) (hf : f ' ' = f '}') :
    (spread ms).head?.any f = (chars ms).head?.any f := by
  cases ms with
  | nil => rfl
  | cons m ms =>
      obtain ⟨c, _ | _⟩ := m
      · rfl
      · obtain ⟨rfl, -⟩ := hs.1 rfl
        exact hf

theorem head_spread_iff {c : Char} (hs : Sound before ms) (hspace : c ≠ ' ') (hbrace : c ≠ '}') :
    (spread ms).head? = some c ↔ (chars ms).head? = some c := by
  cases ms with
  | nil => rfl
  | cons m ms =>
      obtain ⟨d, _ | _⟩ := m
      · rfl
      · obtain ⟨rfl, -⟩ := hs.1 rfl
        exact iff_of_false (fun h => hspace (Option.some.inj h).symm)
          fun h => hbrace (Option.some.inj h).symm

/-- What goes on up to a closing brace goes as far as before, if it does not go on with a space
behind a closing brace. -/
theorem takeWhile_spread {f : Char → Bool} (hs : Sound before ms) (hbrace : f '}' = false)
    (hfirst : before.head? = some '}' → f ' ' = false) :
    let n := ((chars ms).takeWhile f).length
    (spread ms).takeWhile f = (chars ms).takeWhile f ∧
      (spread ms).dropWhile f = spread (ms.drop n) ∧
      (chars ms).dropWhile f = chars (ms.drop n) ∧ clear (ms.take n) = true := by
  induction ms generalizing before with
  | nil => exact ⟨rfl, rfl, rfl, rfl⟩
  | cons m ms ih =>
      obtain ⟨c, _ | _⟩ := m
      · rw [spread_close, chars_cons]
        cases hc : f c with
        | false => simp [hc]
        | true =>
            have hne : (c :: before).head? = some '}' → f ' ' = false := by
              rintro ⟨⟩
              rw [hbrace] at hc
              cases hc
            obtain ⟨htake, hdrop, hdrop', hclear⟩ := ih hs.tail hne
            simp [hc, htake, hdrop, hdrop', hclear]
      · obtain ⟨rfl, rest, rfl⟩ := hs.1 rfl
        simp [hfirst rfl, hbrace]

end Ahead

end Lexeme

end Template

end ProxyFleet
