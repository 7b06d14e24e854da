import Mathlib.Data.List.Basic
import ProxyFleet.Proofs.Number.Range
import ProxyFleet.Proofs.Text.Case
import ProxyFleet.Proofs.Value.Settled

/-!
# Digits in texts

Ports and rates are taken from texts by their digits. What may stand around the digits
differs from one place to the other, but the number is always that of the digits, however
many there are: there is no check that it is finite, as there is for a number that was
written as one. `DigitText` is such a text in pieces, and `Value.isFinite_asInt` tells
the values that give an infinity.
-/

namespace ProxyFleet

open Decimal

theorem isBlank_of_isDigit {c : Char} (h : c.isDigit = true) : isBlank c = false := by
  refine Bool.eq_false_iff.2 fun hblank => ?_
  simp only [Char.isDigit, Bool.and_eq_true, decide_eq_true_eq, ge_iff_le,
    UInt32.le_iff_toNat_le] at h
  obtain ⟨hlow, hhigh⟩ : 48 ≤ c.toNat ∧ c.toNat ≤ 57 := h
  have hrange := blank_ranges hblank
  omega

/-- A text with digits in it: blanks and a sign perhaps before them, and behind them what is not a
digit. -/
structure DigitText where
  blanks : List Char
  sign : List Char
  digits : List Char
  rest : List Char
  areBlank : ∀ c ∈ blanks, isBlank c = true
  isSign : sign = [] ∨ sign = ['-'] ∨ sign = ['+']
  areDigits : AreDigits digits
  ends : ∀ c ∈ rest.head?, c.isDigit = false

namespace DigitText

variable (d : DigitText)

def chars : List Char := d.blanks ++ (d.sign ++ (d.digits ++ d.rest))

/-- What the digits stand for, without a bound. -/
def size : Nat := ofDigits d.digits

def number : Number := Number.ofDecimal (decide (d.sign = ['-'])) d.size 0

/-- Nothing but blanks around the digits and a minus. -/
def IsWhole : Prop := d.sign ≠ ['+'] ∧ ∀ c ∈ d.rest, isBlank c = true

/-- Out of the range of doubles. -/
def IsOutOfRange : Prop := Number.rangeLimit ≤ d.size

theorem isFinite_number : d.number.isFinite = true ↔ ¬ d.IsOutOfRange :=
  Number.isFinite_ofDecimal.trans Nat.not_le.symm

/-! ## Reading -/

theorem head_digits : ∃ c cs, d.digits = c :: cs ∧ c.isDigit = true := by
  obtain ⟨c, cs, hcs⟩ := List.exists_cons_of_ne_nil d.areDigits.1
  exact ⟨c, cs, hcs, d.areDigits.2 c (hcs ▸ List.mem_cons_self)⟩

theorem signPart_eq : signPart (d.sign ++ (d.digits ++ d.rest)) =
    (decide (d.sign = ['-']), d.digits ++ d.rest) := by
  obtain ⟨c, cs, hcs, hc⟩ := d.head_digits
  rcases d.isSign with h | h | h
  · rw [h, hcs]
    have hminus : c ≠ '-' := by rintro rfl; cases hc
    have hplus : c ≠ '+' := by rintro rfl; cases hc
    simp [signPart, hminus, hplus]
  · rw [h]
    rfl
  · rw [h]
    rfl

theorem ofLeadingDigits?_signed :
    Number.ofLeadingDigits? (d.sign ++ (d.digits ++ d.rest)) = some d.number := by
  obtain ⟨c, cs, hcs, -⟩ := d.head_digits
  have hspan := spanDigits_append d.areDigits.2 d.ends
  rw [hcs] at hspan
  rw [Number.ofLeadingDigits?, signPart_eq, hcs]
  dsimp only
  rw [hspan, number, size, hcs]

theorem head_unblank : ∀ c ∈ (d.sign ++ (d.digits ++ d.rest)).head?, isBlank c = false := by
  obtain ⟨c, cs, hcs, hc⟩ := d.head_digits
  rcases d.isSign with h | h | h
  · rw [h, hcs]
    rintro x ⟨⟩
    exact isBlank_of_isDigit hc
  · rw [h]
    rintro x ⟨⟩
    rfl
  · rw [h]
    rintro x ⟨⟩
    rfl

/-- Digits are found behind blanks and a sign. -/
theorem ofLeadingDigits?_chars :
    Number.ofLeadingDigits? (d.chars.dropWhile isBlank) = some d.number := by
  rw [chars, dropWhile_blank d.areBlank, dropWhile_unblank d.head_unblank, ofLeadingDigits?_signed]

/-- The digits and their sign alone. -/
def bare : DigitText := { d with blanks := [], rest := [], areBlank := nofun, ends := nofun }

theorem trimmed_bare : Trimmed (d.sign ++ d.digits) := by
  refine ⟨?_, fun c hc => ?_⟩
  · have hhead := d.bare.head_unblank
    rwa [bare, List.append_nil] at hhead
  · rw [List.getLast?_append_of_ne_nil _ d.areDigits.1] at hc
    exact isBlank_of_isDigit (d.areDigits.2 c (List.mem_of_getLast? hc))

variable {d}

/-- A whole text is read as its digits. -/
theorem IsWhole.wholeText? (h : d.IsWhole) : wholeText? d.chars = some d.number := by
  have htrim : trimChars d.chars = d.sign ++ d.digits := by
    have hchars : d.chars = d.blanks ++ (d.sign ++ d.digits) ++ d.rest := by
      rw [chars, List.append_assoc, List.append_assoc]
    rw [hchars]
    exact trimChars_append d.areBlank d.trimmed_bare h.2
  have hread : Number.ofLeadingDigits? (d.sign ++ d.digits) = some d.number := by
    have hbare := d.bare.ofLeadingDigits?_signed
    rwa [bare, List.append_nil] at hbare
  obtain ⟨c, cs, hcs, hc⟩ := d.head_digits
  have hall : (!d.digits.isEmpty && d.digits.all Char.isDigit) = true := by
    rw [List.all_eq_true.2 d.areDigits.2, hcs]
    rfl
  rw [ProxyFleet.wholeText?, htrim, hread]
  refine if_pos ?_
  rcases d.isSign with hsign | hsign | hsign
  · rw [hsign, List.nil_append]
    split
    · next ds heq =>
      rw [heq] at hcs
      cases hcs
      cases hc
    · exact hall
  · rw [hsign]
    exact hall
  · exact absurd hsign h.1

end DigitText

theorem signPart_cases (cs : List Char) : ∃ sign body, cs = sign ++ body ∧
    (sign = [] ∨ sign = ['-'] ∨ sign = ['+']) ∧ signPart cs = (decide (sign = ['-']), body) := by
  unfold signPart
  split
  · next r => exact ⟨['-'], r, rfl, Or.inr (Or.inl rfl), rfl⟩
  · next r => exact ⟨['+'], r, rfl, Or.inr (Or.inr rfl), rfl⟩
  · exact ⟨[], cs, rfl, Or.inl rfl, rfl⟩

/-- A number is found only where there are digits. -/
theorem exists_digitText {cs : List Char} {n : Number}
    (h : Number.ofLeadingDigits? (cs.dropWhile isBlank) = some n) :
    ∃ d : DigitText, d.chars = cs ∧ d.number = n := by
  obtain ⟨blanks, text, rfl, hblanks, htext⟩ := exists_blanks cs
  obtain ⟨sign, body, rfl, hsign, hpart⟩ := signPart_cases text
  rw [dropWhile_blank hblanks, dropWhile_unblank htext, Number.ofLeadingDigits?, hpart] at h
  dsimp only [spanDigits] at h
  split at h
  · cases h
  · next digits rest hne heq =>
    obtain ⟨rfl, rfl⟩ := Prod.mk.inj heq
    have hends := List.head?_dropWhile_not Char.isDigit body
    refine ⟨⟨blanks, sign, _, body.dropWhile Char.isDigit, hblanks, hsign, ⟨hne, ?_⟩, ?_⟩, ?_,
      Option.some.inj h⟩
    · exact fun c hc => List.all_eq_true.1 List.all_takeWhile c hc
    · intro c hc
      rw [Option.mem_def.1 hc] at hends
      exact hends
    · rw [DigitText.chars, List.takeWhile_append_dropWhile]

theorem exists_whole {cs : List Char} {n : Number} (h : wholeText? cs = some n) :
    ∃ d : DigitText, d.IsWhole ∧ d.chars = cs ∧ d.number = n := by
  obtain ⟨pre, mid, post, rfl, hpre, hmid, hpost⟩ := exists_trimmed cs
  obtain ⟨sign, digits, rfl, hsign, hdigits⟩ : ∃ sign digits, mid = sign ++ digits ∧
      (sign = [] ∨ sign = ['-']) ∧ AreDigits digits := by
    have hbody := h
    rw [wholeText?, trimChars_append hpre hmid hpost] at hbody
    obtain ⟨hall, -⟩ := Option.ite_none_right_eq_some.1 hbody
    split at hall
    · next ds => exact ⟨['-'], ds, rfl, Or.inr rfl, by simpa [AreDigits] using hall⟩
    · exact ⟨[], mid, rfl, Or.inl rfl, by simpa [AreDigits] using hall⟩
  have hends : ∀ c ∈ post.head?, c.isDigit = false := fun c hc => by
    refine Bool.eq_false_iff.2 fun hdigit => ?_
    have hblank := hpost c (List.mem_of_mem_head? hc)
    rw [isBlank_of_isDigit hdigit] at hblank
    cases hblank
  let d : DigitText :=
    ⟨pre, sign, digits, post, hpre, hsign.imp_right Or.inl, hdigits, hends⟩
  have hwhole : d.IsWhole := by
    refine ⟨fun hplus => ?_, hpost⟩
    change sign = ['+'] at hplus
    rcases hsign with rfl | rfl <;> cases hplus
  have hchars : d.chars = pre ++ (sign ++ digits) ++ post := by
    change pre ++ (sign ++ (digits ++ post)) = _
    rw [List.append_assoc, List.append_assoc]
  refine ⟨d, hwhole, hchars, ?_⟩
  rw [← hchars, hwhole.wholeText?] at h
  exact Option.some.inj h

namespace Value

/-- A text of digits that are out of the range of doubles. -/
def IsOutOfRange (v : Value) : Prop :=
  ∃ d : DigitText, d.IsWhole ∧ v = .str (String.ofList d.chars) ∧ d.IsOutOfRange

/-- The number of a value is finite unless its digits are out of range. -/
theorem isFinite_asInt {v : Value} : v.asInt.isFinite = true ↔ ¬ v.IsOutOfRange := by
  cases v with
  | num n =>
    refine iff_of_true ?_ fun ⟨_, _, hd, _⟩ => nomatch hd
    rw [asInt]
    split
    · next hn =>
      cases n with
      | finite u => rfl
      | _ => cases hn
    · rfl
  | str s =>
    constructor
    · rintro hfinite ⟨d, hwhole, hd, hrange⟩
      injection hd with hd
      rw [hd, asInt, String.toList_ofList, hwhole.wholeText?, Option.getD_some,
        d.isFinite_number] at hfinite
      exact hfinite hrange
    · intro hrange
      rw [asInt]
      cases hread : wholeText? s.toList with
      | none => rfl
      | some n =>
        obtain ⟨d, hwhole, hchars, rfl⟩ := exists_whole hread
        rw [Option.getD_some, d.isFinite_number]
        refine fun hout => hrange ⟨d, hwhole, ?_, hout⟩
        rw [hchars, String.ofList_toList]
  | _ => exact iff_of_true rfl fun ⟨_, _, hd, _⟩ => nomatch hd

end Value

end ProxyFleet
