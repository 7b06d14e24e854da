import ProxyFleet.Number.Decimal
import ProxyFleet.Value.Token

/-!
# Numbers are written as data texts have them

Every finite number is written as a data text may write a number: with a whole
part that has no idle leading zeros, then perhaps a fraction, then perhaps an
exponent (`Numeral`). So whatever is written can be read, and it is made of
nothing but characters that continue a number.

What could go wrong is a zero in front, which is why the digits found for a
number other than zero must not be zero.
-/

namespace ProxyFleet

/-! ## Digits -/

namespace Decimal

/-- Nothing but digits, and at least one. -/
def AreDigits (cs : List Char) : Prop := cs ≠ [] ∧ ∀ c ∈ cs, c.isDigit = true

theorem areDigits_digitsOf (n : Nat) : AreDigits (digitsOf n) :=
  ⟨Nat.toDigits_ne_nil, fun _ h => Nat.isDigit_of_mem_toDigits (by decide) (by decide) h⟩

theorem AreDigits.append {cs ds : List Char} (h1 : AreDigits cs)
    (h2 : ∀ c ∈ ds, c.isDigit = true) : AreDigits (cs ++ ds) :=
  ⟨List.append_ne_nil_of_left_ne_nil h1.1 ds, fun c hc => (List.mem_append.1 hc).elim (h1.2 c)
    (h2 c)⟩

/-- The digits of a number other than zero do not begin with a zero. -/
theorem head_digitsOf : ∀ {n : Nat}, n ≠ 0 → ∃ d ds, digitsOf n = d :: ds ∧ d ≠ '0' := by
  intro n
  induction n using Nat.strongRecOn with
  | _ n ih =>
    intro hn
    unfold digitsOf
    rw [Nat.toDigits_eq_if (by decide)]
    split
    · next hsmall =>
        refine ⟨n.digitChar, [], rfl, ?_⟩
        have hdigit : ∀ m < 10, m ≠ 0 → m.digitChar ≠ '0' := by decide
        exact hdigit n hsmall hn
    · obtain ⟨d, ds, hds, hd⟩ := ih (n / 10) (by omega) (by omega)
      unfold digitsOf at hds
      exact ⟨d, ds ++ [(n % 10).digitChar], by rw [hds]; rfl, hd⟩

theorem spanDigits_append {ds rest : List Char} (hds : ∀ c ∈ ds, c.isDigit = true)
    (hrest : ∀ c ∈ rest.head?, c.isDigit = false) : spanDigits (ds ++ rest) = (ds, rest) := by
  have hstop : rest.takeWhile Char.isDigit = [] ∧ rest.dropWhile Char.isDigit = rest := by
    cases rest with
    | nil => exact ⟨rfl, rfl⟩
    | cons c cs =>
        have hc : c.isDigit = false := hrest c rfl
        rw [List.takeWhile_cons_of_neg (by simp [hc]), List.dropWhile_cons_of_neg (by simp [hc])]
        exact ⟨rfl, rfl⟩
  rw [spanDigits, List.takeWhile_append_of_pos hds, List.dropWhile_append_of_pos hds, hstop.1,
    hstop.2, List.append_nil]

end Decimal

open Decimal

/-! ## Numerals -/

/-- A whole part: a single zero, or digits that do not begin with one. -/
def IsWhole (cs : List Char) : Prop :=
  cs = ['0'] ∨ AreDigits cs ∧ ∃ d ds, cs = d :: ds ∧ d ≠ '0'

/-- A fraction, if there is one. -/
def IsFraction (cs : List Char) : Prop := cs = [] ∨ ∃ ds, cs = '.' :: ds ∧ AreDigits ds

/-- An exponent, if there is one. -/
def IsExponent (cs : List Char) : Prop :=
  cs = [] ∨ ∃ sign ds, cs = 'e' :: sign :: ds ∧ (sign = '+' ∨ sign = '-') ∧ AreDigits ds

/-- A number above or equal to zero as data texts have it. -/
inductive Numeral : List Char → Prop
  | parts {whole fraction exponent : List Char} : IsWhole whole → IsFraction fraction →
      IsExponent exponent → Numeral (whole ++ fraction ++ exponent)

namespace Numeral

theorem of_whole {cs : List Char} (h : IsWhole cs) : Numeral cs := by
  have hparts := parts h (.inl rfl) (.inl rfl)
  rwa [List.append_nil, List.append_nil] at hparts

theorem of_fraction {whole ds : List Char} (hwhole : IsWhole whole) (hds : AreDigits ds) :
    Numeral (whole ++ '.' :: ds) := by
  have hparts := parts hwhole (.inr ⟨ds, rfl, hds⟩) (.inl rfl)
  rwa [List.append_nil] at hparts

end Numeral

theorem IsWhole.areDigits {cs : List Char} (h : IsWhole cs) : AreDigits cs := by
  rcases h with rfl | ⟨h, -⟩
  · exact ⟨by simp, fun c hc => List.mem_singleton.1 hc ▸ rfl⟩
  · exact h

theorem IsExponent.part {cs : List Char} (h : IsExponent cs) :
    ∃ e, exponentPart cs = (e, []) := by
  rcases h with rfl | ⟨sign, ds, rfl, hsign, hds⟩
  · exact ⟨0, rfl⟩
  · have hspan : spanDigits ds = (ds, []) := by
      have happend : spanDigits (ds ++ []) = (ds, []) := spanDigits_append hds.2 nofun
      rwa [List.append_nil] at happend
    obtain ⟨d, ds, rfl⟩ := List.exists_cons_of_ne_nil hds.1
    rcases hsign with rfl | rfl
    · exact ⟨_, by simp only [exponentPart, hspan]; rfl⟩
    · exact ⟨_, by simp only [exponentPart, hspan]; rfl⟩

theorem IsExponent.head {cs : List Char} (h : IsExponent cs) :
    ∀ c ∈ cs.head?, c.isDigit = false ∧ c ≠ '.' := by
  rcases h with rfl | ⟨sign, ds, rfl, -⟩
  · nofun
  · intro c hc
    cases hc
    decide

theorem IsFraction.head {cs rest : List Char} (h : IsFraction cs) (hrest : IsExponent rest) :
    ∀ c ∈ (cs ++ rest).head?, c.isDigit = false := by
  rcases h with rfl | ⟨ds, rfl, -⟩
  · exact fun c hc => (hrest.head c hc).1
  · intro c hc
    cases hc
    decide

theorem IsFraction.part {cs rest : List Char} (h : IsFraction cs) (hrest : IsExponent rest) :
    ∃ ds, fractionPart? (cs ++ rest) = some (ds, rest) := by
  rcases h with rfl | ⟨ds, rfl, hds⟩
  · refine ⟨[], ?_⟩
    rcases hrest with rfl | ⟨sign, es, rfl, -⟩ <;> rfl
  · obtain ⟨d, ds, rfl⟩ := List.exists_cons_of_ne_nil hds.1
    refine ⟨d :: ds, ?_⟩
    change fractionPart? ('.' :: (d :: ds ++ rest)) = _
    rw [fractionPart?, spanDigits_append hds.2 fun c hc => (hrest.head c hc).1]

/-- A numeral can be read, with and without a minus before it. -/
theorem Numeral.ofUnsigned? {cs : List Char} (h : Numeral cs) (negative : Bool) :
    (Number.ofUnsigned? negative cs).isSome = true := by
  obtain ⟨hwhole, hfraction, hexponent⟩ := h
  rename_i whole fraction exponent
  obtain ⟨e, he⟩ := hexponent.part
  obtain ⟨ds, hds⟩ := hfraction.part hexponent
  unfold Number.ofUnsigned?
  rw [List.append_assoc, spanDigits_append hwhole.areDigits.2 (hfraction.head hexponent)]
  rcases hwhole with rfl | ⟨-, d, digits, rfl, hd⟩
  · simp only [hds, he, Option.isSome_some]
  · split
    · next hnil => cases hnil
    · next hzero => exact absurd (List.cons.inj (Prod.mk.inj hzero).1).1 hd
    · next hfound =>
        obtain ⟨rfl, rfl⟩ := Prod.mk.inj hfound
        simp only [hds, he, Option.isSome_some]

theorem Numeral.head {cs : List Char} (h : Numeral cs) : ∃ d ds, cs = d :: ds ∧ d.isDigit = true := by
  obtain ⟨hwhole, -, -⟩ := h
  obtain ⟨d, ds, rfl⟩ := List.exists_cons_of_ne_nil hwhole.areDigits.1
  exact ⟨d, _, rfl, hwhole.areDigits.2 d List.mem_cons_self⟩

theorem Numeral.continues {cs : List Char} (h : Numeral cs) :
    ∀ c ∈ cs, Token.continuesNumber c = true := by
  have hdigits : ∀ {ds : List Char}, AreDigits ds → ∀ c ∈ ds, Token.continuesNumber c = true := by
    intro ds hds c hc
    simp [Token.continuesNumber, hds.2 c hc]
  obtain ⟨hwhole, hfraction, hexponent⟩ := h
  intro c hc
  rcases List.mem_append.1 hc with hc | hc
  · rcases List.mem_append.1 hc with hc | hc
    · exact hdigits hwhole.areDigits c hc
    · rcases hfraction with rfl | ⟨ds, rfl, hds⟩
      · cases hc
      · rcases List.mem_cons.1 hc with rfl | hc
        · rfl
        · exact hdigits hds c hc
  · rcases hexponent with rfl | ⟨sign, ds, rfl, hsign, hds⟩
    · cases hc
    · rcases List.mem_cons.1 hc with rfl | hc
      · rfl
      · rcases List.mem_cons.1 hc with rfl | hc
        · rcases hsign with rfl | rfl <;> rfl
        · exact hdigits hds c hc

/-! ## What is written -/

theorem isWhole_digitsOf (n : Nat) : IsWhole (digitsOf n) := by
  by_cases hn : n = 0
  · subst hn
    exact .inl (Nat.toDigits_zero 10)
  · exact .inr ⟨areDigits_digitsOf n, head_digitsOf hn⟩

theorem stripZeros_ne_zero (fuel : Nat) : ∀ {d : Decimal}, d.digits ≠ 0 →
    (stripZeros fuel d).digits ≠ 0 := by
  induction fuel with
  | zero => exact fun h => h
  | succ fuel ih =>
      intro d h
      unfold stripZeros
      split
      · next hzero => exact ih (by dsimp only; omega)
      · exact h

theorem isExponent_of_digits {sign : Char} (hsign : sign = '+' ∨ sign = '-') (n : Nat) :
    IsExponent ('e' :: sign :: digitsOf n) :=
  .inr ⟨sign, digitsOf n, rfl, hsign, areDigits_digitsOf n⟩

/-- However a decimal other than zero is laid out, it is a numeral. -/
theorem layout_numeral {d : Decimal} (h : d.digits ≠ 0) : Numeral (Number.layout d) := by
  unfold Number.layout
  have hstripped := stripZeros_ne_zero 1200 h
  generalize stripZeros 1200 d = d at hstripped
  dsimp only
  have hds := areDigits_digitsOf d.digits
  obtain ⟨c, cs, hhead, hc⟩ := head_digitsOf hstripped
  generalize digitsOf d.digits = ds at hds hhead
  subst hhead
  have hzeros : ∀ n : Nat, ∀ c ∈ List.replicate n '0', c.isDigit = true := by
    intro n c hc
    rw [(List.mem_replicate.1 hc).2]
    rfl
  split
  · exact .of_whole (.inr ⟨hds.append (hzeros _), c, _, rfl, hc⟩)
  · next hlong =>
      split
      · next hplace =>
          -- the point stands after the first digit and before the last
          obtain ⟨k, hk⟩ : ∃ k, (d.exponent + (c :: cs).length).toNat = k + 1 :=
            ⟨(d.exponent + (c :: cs).length).toNat - 1, by omega⟩
          have hshort : k + 1 < (c :: cs).length := by omega
          rw [hk]
          refine .of_fraction (.inr ⟨⟨by simp, fun x hx => ?_⟩, c, cs.take k, rfl, hc⟩)
            ⟨?_, fun x hx => hds.2 x (List.mem_of_mem_drop hx)⟩
          · exact hds.2 x (List.mem_of_mem_take hx)
          · rw [Ne, List.drop_eq_nil_iff]
            omega
      · split
        · have hwhole : IsWhole ['0'] := .inl rfl
          refine .of_fraction hwhole ⟨by simp, fun x hx => ?_⟩
          exact (List.mem_append.1 hx).elim (hzeros _ x) (hds.2 x)
        · have hsign : ∀ e : Int, (if e < 0 then '-' else '+') = '+' ∨
              (if e < 0 then '-' else '+') = '-' := by
            intro e
            split
            · exact .inr rfl
            · exact .inl rfl
          have hexponent := isExponent_of_digits (hsign (d.exponent + (c :: cs).length - 1))
            (d.exponent + (c :: cs).length - 1).natAbs
          have hwhole : IsWhole [c] :=
            .inr ⟨⟨by simp, fun x hx => hds.2 x (List.mem_singleton.1 hx ▸ List.mem_cons_self)⟩, c,
              [], rfl, hc⟩
          cases cs with
          | nil => exact .parts hwhole (.inl rfl) hexponent
          | cons c' cs =>
              have hrest : AreDigits (c' :: cs) :=
                ⟨by simp, fun x hx => hds.2 x (List.mem_cons_of_mem c hx)⟩
              have hparts := Numeral.parts hwhole (.inr ⟨c' :: cs, rfl, hrest⟩) hexponent
              rwa [List.append_assoc] at hparts

namespace Number

theorem ofDecimal_zero (negative : Bool) (e : Int) : ofDecimal negative 0 e = .finite 0 := by
  unfold ofDecimal
  exact if_pos rfl

/-- Digits that read back as a number other than zero are not zero. -/
theorem withDigits?_ne_zero {units : Nat} (hunits : units ≠ 0) {place : Int} {count : Nat}
    {d : Decimal} (h : withDigits? units place count = some d) : d.digits ≠ 0 := by
  have hzero : ∀ {e : Int}, (Decimal.mk 0 e).toNumber ≠ Number.finite units := by
    intro e heq
    rw [toNumber, ofDecimal_zero] at heq
    have hunit := Number.finite.inj heq
    omega
  unfold withDigits? at h
  dsimp only at h
  split at h
  · next hlow hhigh =>
      cases h
      intro hdigits
      have hlow' := of_decide_eq_true hlow
      have hhigh' := of_decide_eq_true hhigh
      dsimp only at hdigits
      split at hdigits
      · exact hzero (hdigits ▸ hlow')
      · split at hdigits
        · exact hzero (hdigits ▸ hhigh')
        · split at hdigits
          · exact hzero (hdigits ▸ hlow')
          · exact hzero (hdigits ▸ hhigh')
  · next hlow _ =>
      cases h
      intro hdigits
      dsimp only at hdigits
      exact hzero (hdigits ▸ of_decide_eq_true hlow)
  · cases h
    exact Nat.succ_ne_zero _
  · cases h

theorem shortest_ne_zero {units : Nat} (hunits : units ≠ 0) : (shortest units).digits ≠ 0 := by
  unfold shortest
  split
  · next d hd =>
      obtain ⟨i, -, hi⟩ := List.exists_of_findSome?_eq_some hd
      exact withDigits?_ne_zero hunits hi
  · have hpow : ∀ k, Nat.pow 5 k ≠ 0 := fun k => Nat.ne_of_gt (Nat.pow_pos (by decide))
    exact Nat.mul_ne_zero hunits (hpow 1074)

theorem unsignedText_numeral (units : Nat) : Numeral (unsignedText units) := by
  unfold unsignedText
  split
  · exact .of_whole (isWhole_digitsOf _)
  · next hnot =>
      refine layout_numeral (shortest_ne_zero fun hunits => hnot ?_)
      rw [hunits]
      exact ⟨Nat.zero_mod _, by rw [Nat.zero_div]; decide⟩

/-- A finite number is written as a numeral, after a minus if it is below zero. -/
theorem chars_numeral {n : Number} (h : n.isFinite = true) :
    ∃ cs, Numeral cs ∧ (n.chars = cs ∨ n.chars = '-' :: cs) := by
  cases n with
  | finite units =>
      have hnumeral := unsignedText_numeral units.natAbs
      unfold chars
      dsimp only
      generalize unsignedText units.natAbs = cs at hnumeral
      by_cases hunits : units < 0
      · exact ⟨cs, hnumeral, .inr (if_pos hunits)⟩
      · exact ⟨cs, hnumeral, .inl (if_neg hunits)⟩
  | _ => cases h

/-- Whatever finite number is written, it can be read. -/
theorem ofLexeme?_chars {n : Number} (h : n.isFinite = true) :
    (ofLexeme? n.chars).isSome = true := by
  obtain ⟨cs, hcs, hchars | hchars⟩ := chars_numeral h
  · obtain ⟨d, ds, rfl, hd⟩ := hcs.head
    have hminus : d ≠ '-' := by
      rintro rfl
      cases hd
    rw [hchars, ofLexeme?]
    · exact hcs.ofUnsigned? false
    · exact fun _ heq => hminus (List.cons.inj heq).1
  · rw [hchars, ofLexeme?]
    exact hcs.ofUnsigned? true

end Number

end ProxyFleet
