import ProxyFleet.Proofs.Number.RoundTrip
import ProxyFleet.Xray.Destination

/-!
# Destinations are taken apart where they were put together

A destination is the name of a server, a colon and the digits of a port. There is no
colon among digits, so the last colon is the one that was put there, even if the name
has others in it. A name in brackets would lose them.
-/

namespace ProxyFleet

open Decimal

/-! ## Ports -/

namespace Number

/-- A number that names a port. -/
def IsPort (n : Number) : Prop := ∃ p, n.toInt? = some p ∧ 1 ≤ p ∧ p ≤ 65535

theorem unsignedText_whole {p : Nat} (hp : p < exactLimit) :
    unsignedText (p * unitsPerOne) = digitsOf p := by
  have hdiv : p * unitsPerOne / unitsPerOne = p := Nat.mul_div_cancel p unitsPerOne_pos
  have hwhole : p * unitsPerOne % unitsPerOne = 0 := Nat.mul_mod_left p unitsPerOne
  unfold unsignedText
  rw [hdiv]
  exact if_pos ⟨hwhole, hp⟩

theorem isDouble_units {p : Nat} (hp : p < 2 ^ 53) :
    IsDouble (.finite ((p * unitsPerOne : Nat) : Int)) := by
  have hlimit : 2 ^ 53 * unitsPerOne ≤ unitsLimit := by
    rw [unitsPerOne_eq, unitsLimit_eq, ← Nat.pow_add]
    exact Nat.pow_le_pow_right (by decide) (by decide)
  change Significant (p * unitsPerOne) ∧ p * unitsPerOne < unitsLimit
  exact ⟨⟨p, 1074, hp, by rw [unitsPerOne_eq]⟩,
    Nat.lt_of_lt_of_le (Nat.mul_lt_mul_of_pos_right hp unitsPerOne_pos) hlimit⟩

/-- A port is written with its digits, and is the number that they stand for. -/
theorem IsPort.digits {n : Number} (h : n.IsPort) :
    ∃ p : Nat, n.chars = digitsOf p ∧ ofDecimal false p 0 = n := by
  obtain ⟨p, hp, hlow, hhigh⟩ := h
  obtain ⟨p, rfl⟩ := Int.eq_ofNat_of_zero_le (by omega : 0 ≤ p)
  obtain ⟨u, rfl, hwhole, hu⟩ : ∃ u, n = .finite u ∧ u % unitsPerOne = 0 ∧ u / unitsPerOne = p := by
    unfold toInt? at hp
    split at hp
    · next u =>
        obtain ⟨hwhole, hu⟩ := Option.ite_none_right_eq_some.1 hp
        exact ⟨u, rfl, hwhole, Option.some.inj hu⟩
    · cases hp
  have hunits : u = ((p * unitsPerOne : Nat) : Int) := by
    rw [Int.natCast_mul, ← hu, Int.ediv_mul_cancel (Int.dvd_of_emod_eq_zero hwhole)]
  have hsmall : p < exactLimit := Nat.lt_of_le_of_lt (by omega : p ≤ 65535) (by decide)
  refine ⟨p, ?_, ?_⟩
  · have hpositive : ¬((p * unitsPerOne : Nat) : Int) < 0 := Int.not_lt.2 (Int.natCast_nonneg _)
    rw [hunits]
    unfold chars
    dsimp only
    rw [if_neg hpositive, Int.natAbs_natCast, unsignedText_whole hsmall]
  · have hparts : decimalParts p 0 = (1 * (p * unitsPerOne), 1) := by
      change (p * 1 * unitsPerOne, 1) = _
      rw [Nat.mul_one, Nat.one_mul]
    rw [ofDecimal_eq false (by omega), hparts, hunits]
    exact ofRatio_exact (isDouble_units (by omega)) Nat.one_pos false

end Number

theorem dropWhile_digits {ds : List Char} (h : AreDigits ds) : ds.dropWhile isBlank = ds := by
  obtain ⟨d, ds, rfl⟩ := List.exists_cons_of_ne_nil h.1
  have hdigit := h.2 d List.mem_cons_self
  simp only [Char.isDigit, Bool.and_eq_true, decide_eq_true_eq, ge_iff_le,
    UInt32.le_iff_toNat_le] at hdigit
  obtain ⟨hlow, hhigh⟩ : 48 ≤ d.toNat ∧ d.toNat ≤ 57 := hdigit
  refine List.dropWhile_cons_of_neg fun hblank => ?_
  have hrange := blank_ranges hblank
  omega

theorem Number.ofLeadingDigits?_digits {ds : List Char} (h : AreDigits ds) :
    ofLeadingDigits? ds = some (ofDecimal false (ofDigits ds) 0) := by
  have hspan := spanDigits_self h.2
  obtain ⟨d, ds, rfl⟩ := List.exists_cons_of_ne_nil h.1
  have hsign : signPart (d :: ds) = (false, d :: ds) := by
    have hdigit := h.2 d List.mem_cons_self
    unfold signPart
    split
    · next heq =>
        rw [(List.cons.inj heq).1] at hdigit
        cases hdigit
    · next heq =>
        rw [(List.cons.inj heq).1] at hdigit
        cases hdigit
    · rfl
  unfold ofLeadingDigits?
  rw [hsign]
  dsimp only
  rw [hspan]

/-! ## Destinations -/

theorem splitLast?_append {c : Char} {cs ds : List Char} (h : c ∉ ds) :
    splitLast? c (cs ++ c :: ds) = some (cs, ds) := by
  have hother : ∀ d ∈ ds.reverse, (d != c) = true := by
    intro d hd
    rw [bne_iff_ne]
    rintro rfl
    exact h (List.mem_reverse.1 hd)
  have hreverse : (cs ++ c :: ds).reverse = ds.reverse ++ c :: cs.reverse := by simp
  unfold splitLast?
  rw [hreverse, List.dropWhile_append_of_pos hother, List.takeWhile_append_of_pos hother]
  simp

namespace Xray

/-- A name that is not in brackets. -/
def Unbracketed (server : String) : Prop :=
  ¬(server.toList.head? = some '[' ∧ server.toList.getLast? = some ']')

theorem dropBrackets_eq {server : String} (h : Unbracketed server) :
    dropBrackets server.toList = server.toList := by
  unfold Unbracketed at h
  unfold dropBrackets
  split
  · next rest hrest =>
      rw [hrest] at h
      refine if_neg fun hbracketed => h ⟨rfl, ?_⟩
      have hlast : rest.getLast? = some ']' := by
        simp only [Bool.and_eq_true, decide_eq_true_eq] at hbracketed
        exact hbracketed.1
      rw [List.getLast?_cons, hlast]
      rfl
  · rfl

/-- A server and its port are read from the text they are written as. -/
theorem splitDestination_written {h : Handshake} (hserver : Unbracketed h.server)
    (hport : h.serverPort.IsPort) :
    splitDestination (h.server ++ ":" ++ h.serverPort.text) = h := by
  obtain ⟨p, hchars, hp⟩ := hport.digits
  have hdigits := areDigits_digitsOf p
  have htext : (h.server ++ ":" ++ h.serverPort.text).toList =
      h.server.toList ++ ':' :: digitsOf p := by
    rw [String.toList_append, String.toList_append, Number.text, hchars, String.toList_ofList]
    simp
  have hcolon : ':' ∉ digitsOf p := fun hmem => absurd (hdigits.2 _ hmem) (by decide)
  unfold splitDestination
  rw [htext, splitLast?_append hcolon]
  dsimp only
  rw [dropBrackets_eq hserver, dropWhile_digits hdigits, Number.ofLeadingDigits?_digits hdigits,
    ofDigits_digitsOf, Option.getD_some, hp, String.ofList_toList]

end Xray

end ProxyFleet
