import ProxyFleet.Proofs.Template.Spaces.Gaps
import Mathlib.Data.List.Forall2

/-!
# Spaces in tags

Within a tag the scanner tries its rules in order, so the two texts are followed rule by rule. A rule
that fails on the text as it was fails on the text with its spaces; a rule that takes something of
it takes the same as long as no space is put into that (`Follows`). Both together carry over to the
first rule that applies, and so to a step (`tag_follows`).

Rules for words and numbers never tell a space from a closing brace behind what they take. Rules
that look for an end, of a text in quotes or of a comment, find the end they found, since a space
neither makes an end nor, where none is put, breaks one.
-/

namespace ProxyFleet

namespace Template

open Marked

namespace Lexeme

variable {ms : Marked} {before : List Char}

/-! ## Rules of tags -/

/-- How a rule for what stands in a tag takes the spaces: if no space is put into what it takes, it
takes the same. It takes something, and no backslash. -/
structure Follows (ms : Marked) (a b : Option Step) : Prop where
  fails : a = none → b = none
  takes {s : Step} : a = some s → clear (ms.take s.length) = true → b = some s
  pos {s : Step} : a = some s → 0 < s.length
  mode {s : Step} : a = some s → s.mode ≠ .escaped

namespace Follows

variable {a b a' b' : Option Step} {s : Step}

theorem never : Follows ms none none := ⟨fun _ => rfl, nofun, nofun, nofun⟩

theorem const (hpos : 0 < s.length) (hmode : s.mode ≠ .escaped) :
    Follows ms (some s) (some s) := by
  refine ⟨nofun, fun h _ => h, ?_, ?_⟩
  · rintro _ ⟨⟩
    exact hpos
  · rintro _ ⟨⟩
    exact hmode

/-- A rule that sees no difference. -/
theorem of_eq (h : b = a) (hstep : ∀ s, a = some s → 0 < s.length ∧ s.mode ≠ .escaped) :
    Follows ms a b :=
  ⟨fun ha => h.trans ha, fun ha _ => h.trans ha, fun ha => (hstep _ ha).1,
    fun ha => (hstep _ ha).2⟩

theorem ite {c : Prop} [Decidable c] (h : Follows ms a b) (h' : Follows ms a' b') :
    Follows ms (if c then a else a') (if c then b else b') := by
  split
  · exact h
  · exact h'

/-- A rule for a text, before others. -/
theorem ite_begins {p : List Char} {l : Option Lexeme} {mode : Mode} (hp : ' ' ∉ p)
    (hpos : 0 < p.length) (hmode : mode ≠ .escaped) (h : Follows ms a b) :
    Follows ms (if begins p (chars ms) then some ⟨l, p.length, mode⟩ else a)
      (if begins p (spread ms) then some ⟨l, p.length, mode⟩ else b) := by
  rw [begins_spread hp]
  cases hbegins : begins p (chars ms) with
  | false => simpa using h
  | true =>
      rw [if_pos rfl, Bool.true_and]
      refine ⟨nofun, ?_, ?_, ?_⟩
      · rintro _ ⟨⟩ hclear
        rw [if_pos hclear]
      · rintro _ ⟨⟩
        exact hpos
      · rintro _ ⟨⟩
        exact hmode

theorem getD {d : Step} (h : Follows ms a b) (hpos : 0 < d.length) (hmode : d.mode ≠ .escaped) :
    Follows ms (some (a.getD d)) (some (b.getD d)) := by
  cases a with
  | none =>
      rw [h.fails rfl]
      exact const hpos hmode
  | some s =>
      refine ⟨nofun, ?_, ?_, ?_⟩
      · rintro _ ⟨⟩ hclear
        rw [h.takes rfl hclear]
      · rintro _ ⟨⟩
        exact h.pos rfl
      · rintro _ ⟨⟩
        exact h.mode rfl

theorem firstRule {as bs : List (Option Step)} (h : List.Forall₂ (Follows ms) as bs) :
    Follows ms (firstRule as) (firstRule bs) := by
  induction h with
  | nil => exact never
  | @cons a b as bs hab _ ih =>
      rw [Lexeme.firstRule, Lexeme.firstRule, List.findSome?_cons, List.findSome?_cons]
      cases a with
      | none =>
          rw [hab.fails rfl]
          exact ih
      | some s =>
          refine ⟨nofun, ?_, ?_, ?_⟩
          · rintro _ ⟨⟩ hclear
            rw [hab.takes rfl hclear]
          · rintro _ ⟨⟩
            exact hab.pos rfl
          · rintro _ ⟨⟩
            exact hab.mode rfl

end Follows

/-- A rule that makes a step out of what it finds. -/
theorem Follows.map {α : Type} {x y : Option α} {f : α → Step} (hfails : x = none → y = none)
    (htakes : ∀ v, x = some v → clear (ms.take (f v).length) = true → y = some v)
    (hstep : ∀ v, x = some v → 0 < (f v).length ∧ (f v).mode ≠ .escaped) :
    Follows ms (x.map f) (y.map f) := by
  cases x with
  | none =>
      rw [hfails rfl]
      exact .never
  | some v =>
      refine ⟨nofun, ?_, ?_, ?_⟩
      · rintro _ ⟨⟩ hclear
        rw [htakes v rfl hclear]
        rfl
      · rintro _ ⟨⟩
        exact (hstep v rfl).1
      · rintro _ ⟨⟩
        exact (hstep v rfl).2

/-- A rule that looks for something and then goes on. -/
theorem Follows.bind {α : Type} {x y : Option α} {f g : α → Option Step}
    (hfails : x = none → y = none)
    (htakes : ∀ v, x = some v → ∃ w, y = some w ∧ Follows ms (f v) (g w)) :
    Follows ms (x.bind f) (y.bind g) := by
  cases x with
  | none =>
      rw [hfails rfl]
      exact .never
  | some v =>
      obtain ⟨w, rfl, h⟩ := htakes v rfl
      exact h

/-- Closing braces close a tag unless a space is put between them. -/
theorem closing?_spread (ms : Marked) :
    closing? (spread ms) = (closing? (chars ms)).filter fun c => clear (ms.take c.1) := by
  have hlong : begins ['~', '}', '}'] (spread ms) =
      (begins ['~', '}', '}'] (chars ms) && clear (ms.take 3)) := begins_spread (by decide)
  have hshort : begins ['}', '}'] (spread ms) =
      (begins ['}', '}'] (chars ms) && clear (ms.take 2)) := begins_spread (by decide)
  rw [closing?, closing?, hlong, hshort]
  cases hl : begins ['~', '}', '}'] (chars ms) with
  | true =>
      -- what begins with a tilde does not begin with a brace
      have hs : begins ['}', '}'] (chars ms) = false := by
        cases hms : chars ms with
        | nil => rfl
        | cons c cs =>
            rw [hms, begins, afterPrefix?] at hl
            split at hl
            · next hc =>
                subst hc
                rfl
            · cases hl
      cases hclear : clear (ms.take 3) <;> simp [hs, hclear, Option.filter]
  | false =>
      cases hs : begins ['}', '}'] (chars ms) <;> cases hclear : clear (ms.take 2) <;>
        simp [hclear, Option.filter]

theorem closing?_pos {cs : List Char} {c : Nat × Bool} (h : closing? cs = some c) : 0 < c.1 := by
  rw [closing?] at h
  split at h
  · cases h
    decide
  · split at h
    · cases h
      decide
    · cases h

/-- A rule for closing braces, behind something else. -/
theorem Follows.closing (n : Nat) {f : Nat × Bool → Step}
    (hstep : ∀ c, (f c).length = n + c.1 ∧ (f c).mode ≠ .escaped) :
    Follows ms ((closing? (chars (ms.drop n))).map f) ((closing? (spread (ms.drop n))).map f) := by
  refine .map ?_ ?_ ?_
  · intro h
    rw [closing?_spread, h]
    rfl
  · intro c hc hclear
    rw [(hstep c).1] at hclear
    rw [closing?_spread, hc, Option.filter_some, if_pos (clear_take_drop hclear).2]
  · intro c hc
    have hpos := closing?_pos hc
    exact ⟨by rw [(hstep c).1]; omega, (hstep c).2⟩

theorem closingTag_follows {c : Char} :
    Follows ((c, false) :: ms) (closingTag? (c :: chars ms)) (closingTag? (c :: spread ms)) := by
  have hclose : Follows ((c, false) :: ms)
      ((closing? (c :: chars ms)).map fun c => ⟨some (.close c.2), c.1, .plain⟩)
      ((closing? (c :: spread ms)).map fun c => ⟨some (.close c.2), c.1, .plain⟩) :=
    Follows.closing 0 fun c => ⟨(Nat.zero_add c.1).symm, nofun⟩
  by_cases hc : c = '}'
  · subst hc
    rw [closingTag?, closingTag?, closing?_spread ms]
    cases hx : closing? (chars ms) with
    | none => exact hclose
    | some v =>
        refine ⟨nofun, ?_, ?_, ?_⟩
        · rintro _ ⟨⟩ hclear
          have hrest : clear (ms.take v.1) = true := hclear
          rw [Option.filter_some, if_pos hrest]
        · rintro _ ⟨⟩
          exact Nat.succ_pos _
        · rintro _ ⟨⟩
          exact nofun
  · rw [closingTag?, closingTag?]
    · exact hclose
    · rintro r ⟨⟩
      exact hc rfl
    · rintro r ⟨⟩
      exact hc rfl

/-! ### Quotes -/

/-- What is found of a text in quotes: that it does not end, or where it ends, unless a space is
put into it. -/
structure QuotedAlike (sign : Char) (ms : Marked) : Prop where
  fails : quoted? sign (chars ms) = none → quoted? sign (spread ms) = none
  ends {inner rest : List Char} : quoted? sign (chars ms) = some (inner, rest) →
    clear (ms.take (inner.length + 1)) = true →
    ∃ rest', quoted? sign (spread ms) = some (inner, rest')

namespace QuotedAlike

variable {sign c : Char}

/-- One more character before it, which does not end it. -/
theorem cons (hc : c ≠ sign) (hplain : c = '\\' → (chars ms).head? ≠ some sign ∧
    (spread ms).head? ≠ some sign) (h : QuotedAlike sign ms) :
    QuotedAlike sign ((c, false) :: ms) := by
  have hon : ∀ cs : List Char, (c = '\\' → cs.head? ≠ some sign) →
      quoted? sign (c :: cs) = (quoted? sign cs).map fun r => (c :: r.1, r.2) := by
    intro cs hcs
    cases cs with
    | nil => simp [quoted?, hc]
    | cons d cs =>
        by_cases hslash : c = '\\'
        · subst hslash
          have hd : d ≠ sign := fun hd => hcs rfl (congrArg some hd)
          rw [quoted?, if_neg hd]
        · rw [quoted?, if_neg hc]
          rintro _ _ rfl
          exact absurd rfl hslash
  have hx := hon (chars ms) fun hslash => (hplain hslash).1
  have hy := hon (spread ms) fun hslash => (hplain hslash).2
  refine ⟨fun hnone => ?_, fun {inner rest} hsome hclear => ?_⟩
  · rw [chars_cons, hx, Option.map_eq_none_iff] at hnone
    rw [spread_close, hy, h.fails hnone]
    rfl
  · rw [chars_cons, hx, Option.map_eq_some_iff] at hsome
    obtain ⟨⟨inner, rest⟩, hsome, ⟨⟩⟩ := hsome
    obtain ⟨rest', hrest⟩ := h.ends hsome hclear
    exact ⟨rest', by rw [spread_close, hy, hrest]; rfl⟩

/-- A sign with a backslash before it ends a text only if no other sign does. -/
theorem escaped (h : QuotedAlike sign ms) :
    QuotedAlike sign (('\\', false) :: (sign, false) :: ms) := by
  refine ⟨fun hnone => ?_, fun {inner rest} hsome hclear => ?_⟩
  · rw [chars_cons, chars_cons, quoted?, if_pos rfl] at hnone
    split at hnone <;> cases hnone
  · rw [chars_cons, chars_cons, quoted?, if_pos rfl] at hsome
    rw [spread_close, spread_close, quoted?, if_pos rfl]
    cases hx : quoted? sign (chars ms) with
    | none =>
        rw [hx] at hsome
        cases hsome
        rw [h.fails hx]
        exact ⟨_, rfl⟩
    | some v =>
        obtain ⟨inner', rest'⟩ := v
        rw [hx] at hsome
        cases hsome
        obtain ⟨rest'', hrest⟩ := h.ends hx hclear
        rw [hrest]
        exact ⟨_, rfl⟩

/-- A space put before it does not end a text. -/
theorem gap (hspace : sign ≠ ' ') (h : QuotedAlike sign ((c, false) :: ms)) :
    QuotedAlike sign ((c, true) :: ms) := by
  refine ⟨fun hnone => ?_, nofun⟩
  have hy := h.fails hnone
  rw [spread_close] at hy
  rw [spread_gap, quoted?, if_neg hspace.symm, hy]
  · rfl
  · rintro _ _ ⟨⟩

end QuotedAlike

/-- A text in quotes ends where it did, unless a space is put into it. -/
theorem quotedAlike {sign : Char} (hspace : sign ≠ ' ') (hbrace : sign ≠ '}')
    (hslash : sign ≠ '\\') : ∀ {before : List Char} (ms : Marked), Sound before ms →
    QuotedAlike sign ms
  | _, [], _ => ⟨fun _ => rfl, nofun⟩
  | before, (c, gap) :: ms, hs => by
    have hms : QuotedAlike sign ms := quotedAlike hspace hbrace hslash ms hs.tail
    have hopen : QuotedAlike sign ((c, false) :: ms) := by
      by_cases hc : c = sign
      · subst hc
        have hfound : ∀ cs, quoted? c (c :: cs) = some ([], cs) := by
          intro cs
          rw [quoted?, if_pos rfl]
          rintro _ _ rfl
          exact absurd rfl hslash
        refine ⟨fun hnone => ?_, fun hsome _ => ?_⟩
        · rw [chars_cons, hfound] at hnone
          cases hnone
        · rw [chars_cons, hfound] at hsome
          cases hsome
          exact ⟨_, hfound _⟩
      · match ms, hs, hms with
        | [], _, hms => exact hms.cons hc fun _ => ⟨nofun, nofun⟩
        | (d, gap) :: ms, hs, hms =>
          by_cases hd : c = '\\' ∧ d = sign
          · obtain ⟨rfl, rfl⟩ := hd
            obtain rfl := hs.tail.gap_eq_false hbrace
            exact (quotedAlike hspace hbrace hslash ms hs.tail.tail).escaped
          · refine hms.cons hc fun hc => ⟨fun h => ?_, fun h => ?_⟩
            · exact hd ⟨hc, Option.some.inj h⟩
            · cases gap with
              | false => exact hd ⟨hc, Option.some.inj h⟩
              | true => exact hspace (Option.some.inj h).symm
    cases gap with
    | false => exact hopen
    | true => exact hopen.gap hspace
  termination_by _ ms => ms.length

/-- A rule for what stands in quotes. -/
theorem QuotedAlike.follows {sign c : Char} (h : QuotedAlike sign ms) (l : List Char → Lexeme) :
    Follows ((c, false) :: ms)
      ((quoted? sign (chars ms)).map fun r => ⟨some (l r.1), r.1.length + 2, .tag⟩)
      ((quoted? sign (spread ms)).map fun r => ⟨some (l r.1), r.1.length + 2, .tag⟩) := by
  cases hx : quoted? sign (chars ms) with
  | none =>
      rw [h.fails hx]
      exact .never
  | some v =>
      obtain ⟨inner, rest⟩ := v
      refine ⟨nofun, ?_, ?_, ?_⟩
      · rintro _ ⟨⟩ hclear
        obtain ⟨rest', hrest⟩ := h.ends hx hclear
        rw [hrest]
        rfl
      · rintro _ ⟨⟩
        exact Nat.succ_pos _
      · rintro _ ⟨⟩
        exact nofun

variable {c : Char} {cs : List Char}

theorem string_follows {sign : Char} (hspace : sign ≠ ' ') (hbrace : sign ≠ '}')
    (hslash : sign ≠ '\\') (hs : Sound before ms) :
    Follows ((c, false) :: ms) (string? sign (c :: chars ms)) (string? sign (c :: spread ms)) := by
  refine .ite ?_ .never
  exact (quotedAlike hspace hbrace hslash ms hs).follows fun inner =>
    .string (String.ofList (unescape (· = sign) inner))

theorem bracketed_follows (hs : Sound before ms) :
    Follows ((c, false) :: ms) (bracketed? (c :: chars ms)) (bracketed? (c :: spread ms)) := by
  by_cases hc : c = '['
  · subst hc
    exact (quotedAlike (by decide) (by decide) (by decide) ms hs).follows fun inner =>
      .id (String.ofList ('[' :: unescape (fun c => c = '\\' || c = ']') (inner ++ [']'])))
  · have hnone : ∀ cs, bracketed? (c :: cs) = none := by
      intro cs
      rw [bracketed?]
      rintro _ ⟨⟩
      exact hc rfl
    rw [hnone, hnone]
    exact .never

/-! ### Words and numbers -/

theorem mayFollowLiteral_space : mayFollowLiteral ' ' = mayFollowLiteral '}' := by decide

theorem mayFollowName_space : mayFollowName ' ' = mayFollowName '}' := by decide

theorem literal_follows {w : String} {l : Lexeme} (hs : Sound before ms) (hw : ' ' ∉ w.toList)
    (hw' : '}' ∉ w.toList) (hpos : 0 < w.length) :
    Follows ms (literal? w l (chars ms)) (literal? w l (spread ms)) := by
  refine .of_eq ?_ ?_
  · rw [literal?, literal?, afterPrefix?_spread_eq hs hw hw']
    cases hx : afterPrefix? w.toList (chars ms) with
    | none => rfl
    | some rest =>
        obtain ⟨rfl, -⟩ := afterPrefix?_chars hx
        change (if (spread (ms.drop _)).head?.any mayFollowLiteral then _ else _) = _
        rw [head_any_spread (hs.drop _) mayFollowLiteral_space]
        rfl
  · intro s hsome
    rw [literal?, Option.bind_eq_some_iff] at hsome
    obtain ⟨rest, -, hsome⟩ := hsome
    split at hsome
    · cases hsome
      exact ⟨hpos, nofun⟩
    · cases hsome

theorem spanDigits_spread (hs : Sound before ms) :
    let n := (Decimal.spanDigits (chars ms)).1.length
    Decimal.spanDigits (spread ms) = ((Decimal.spanDigits (chars ms)).1, spread (ms.drop n)) ∧
      (Decimal.spanDigits (chars ms)).2 = chars (ms.drop n) := by
  obtain ⟨htake, hdrop, hdrop', -⟩ :=
    takeWhile_spread (f := Char.isDigit) hs (by decide) (fun _ => by decide)
  exact ⟨Prod.ext htake hdrop, hdrop'⟩

theorem name_follows (hs : Sound before ms) :
    Follows ms (name? (chars ms)) (name? (spread ms)) := by
  obtain ⟨htake, hdrop, hdrop', -⟩ :=
    takeWhile_spread (f := isNameChar) hs (by decide) (fun _ => by decide)
  refine .of_eq ?_ ?_
  · rw [name?, name?, htake, hdrop, hdrop', head_any_spread (hs.drop _) mayFollowName_space]
  · intro s hsome
    rw [name?] at hsome
    split at hsome
    · next hname =>
        cases hsome
        rw [Bool.and_eq_true, Bool.not_eq_true', List.isEmpty_eq_false_iff] at hname
        exact ⟨List.length_pos_iff.2 hname.1, nofun⟩
    · cases hsome

/-- Behind anything but a closing brace, there are as many blanks as before. -/
theorem blanks_spread (hs : Sound before ms) (hb : before.head? ≠ some '}') :
    blanks (spread ms) = blanks (chars ms) ∧
      (spread ms).drop (blanks (chars ms)) = spread (ms.drop (blanks (chars ms))) := by
  obtain ⟨htake, -, -, hclear⟩ :=
    takeWhile_spread (f := isBlank) hs (by decide) (fun h => absurd h hb)
  exact ⟨congrArg List.length htake, (spread_take_drop hclear).2⟩

theorem openNames_follows (hs : Sound before ms) :
    Follows ms (openNames? (chars ms)) (openNames? (spread ms)) := by
  refine .of_eq ?_ ?_
  · rw [openNames?, openNames?, afterPrefix?_spread_eq hs (by decide) (by decide)]
    cases hx : afterPrefix? ['a', 's'] (chars ms) with
    | none => rfl
    | some rest =>
        obtain ⟨rfl, hword⟩ := afterPrefix?_chars hx
        have hrest := hs.drop ['a', 's'].length
        rw [hword] at hrest
        rw [Option.map_some, Option.bind_some, Option.bind_some]
        generalize ms.drop ['a', 's'].length = ns at hrest
        obtain ⟨hblanks, hdrop⟩ := blanks_spread hrest (by rintro ⟨⟩)
        dsimp only
        have hbar := head_spread_iff (c := '|') (hrest.drop (blanks (chars ns))) (by decide)
          (by decide)
        rw [← hdrop, chars_drop] at hbar
        simp only [hblanks, hbar]
  · intro s hsome
    rw [openNames?, Option.bind_eq_some_iff] at hsome
    obtain ⟨rest, -, hsome⟩ := hsome
    dsimp only at hsome
    split at hsome
    · cases hsome
      exact ⟨Nat.succ_pos _, nofun⟩
    · cases hsome

/-- The digits and the fraction of a number, behind its sign. -/
def afterSign? (sign body : List Char) : Option (List Char × List Char) :=
  match Decimal.spanDigits body with
  | ([], _) => none
  | (ds, '.' :: r) => match Decimal.spanDigits r with
    | ([], _) => some (sign ++ ds, '.' :: r)
    | (es, r) => some (sign ++ ds ++ '.' :: es, r)
  | (ds, r) => some (sign ++ ds, r)

theorem numberSpan?_minus (cs : List Char) : numberSpan? ('-' :: cs) = afterSign? ['-'] cs := rfl

theorem numberSpan?_of_ne {cs : List Char} (h : cs.head? ≠ some '-') :
    numberSpan? cs = afterSign? [] cs := by
  unfold numberSpan?
  split
  next hsign =>
  split at hsign
  · exact absurd rfl h
  · cases hsign
    rfl

theorem afterSign?_plain {sign body ds r : List Char} (hds : ds ≠ [])
    (h : Decimal.spanDigits body = (ds, r)) (hr : r.head? ≠ some '.') :
    afterSign? sign body = some (sign ++ ds, r) := by
  rw [afterSign?, h]
  split
  · next heq => cases heq; exact absurd rfl hds
  · next heq => cases heq; exact absurd rfl hr
  · next heq => cases heq; rfl

theorem afterSign?_fraction {sign body ds r es r' : List Char} (hds : ds ≠ [])
    (h : Decimal.spanDigits body = (ds, '.' :: r)) (h' : Decimal.spanDigits r = (es, r')) :
    afterSign? sign body =
      some (if es = [] then (sign ++ ds, '.' :: r) else (sign ++ ds ++ '.' :: es, r')) := by
  rw [afterSign?, h]
  cases ds with
  | nil => exact absurd rfl hds
  | cons d ds =>
      simp only [h']
      cases es <;> rfl

theorem afterSign?_spread (sign : List Char) (hs : Sound before ms) :
    afterSign? sign (spread ms) = (afterSign? sign (chars ms)).map
      (fun r => (r.1, spread (ms.drop (r.1.length - sign.length)))) ∧
    ∀ r, afterSign? sign (chars ms) = some r →
      r.2 = chars (ms.drop (r.1.length - sign.length)) ∧ sign.length < r.1.length := by
  obtain ⟨hy, hrest⟩ := spanDigits_spread hs
  have hx : Decimal.spanDigits (chars ms) = ((Decimal.spanDigits (chars ms)).1,
      chars (ms.drop (Decimal.spanDigits (chars ms)).1.length)) := Prod.ext rfl hrest
  have hns := hs.drop (Decimal.spanDigits (chars ms)).1.length
  generalize (Decimal.spanDigits (chars ms)).1 = ds at hx hy hns
  by_cases hds : ds = []
  · subst hds
    rw [afterSign?, afterSign?, hx, hy]
    exact ⟨rfl, nofun⟩
  have hshort : sign.length < (sign ++ ds).length := by
    rw [List.length_append]
    have := List.length_pos_iff.2 hds
    omega
  have hlength : (sign ++ ds).length - sign.length = ds.length := by simp
  generalize hdrop : ms.drop ds.length = ns at hx hy hns
  by_cases hdot : (chars ns).head? = some '.'
  · obtain ⟨ns', rfl⟩ := hns.of_head hdot (by decide)
    obtain ⟨hy', hrest'⟩ := spanDigits_spread hns.tail
    have hx' : Decimal.spanDigits (chars ns') = ((Decimal.spanDigits (chars ns')).1,
        chars (ns'.drop (Decimal.spanDigits (chars ns')).1.length)) := Prod.ext rfl hrest'
    generalize (Decimal.spanDigits (chars ns')).1 = es at hx' hy'
    rw [afterSign?_fraction hds hx hx', afterSign?_fraction hds hy hy']
    have hrest' : ns'.drop es.length = ms.drop (ds.length + 1 + es.length) := by
      rw [Nat.add_assoc, ← List.drop_drop, hdrop, Nat.add_comm 1, List.drop_succ_cons]
    by_cases hes : es = []
    · rw [if_pos hes, if_pos hes]
      refine ⟨?_, ?_⟩
      · rw [Option.map_some, hlength, hdrop]
        rfl
      · rintro _ ⟨⟩
        rw [hlength, hdrop]
        exact ⟨rfl, hshort⟩
    · have hlength' : (sign ++ ds ++ '.' :: es).length - sign.length =
          ds.length + 1 + es.length := by
        simp only [List.length_append, List.length_cons]
        omega
      rw [if_neg hes, if_neg hes]
      refine ⟨?_, ?_⟩
      · rw [Option.map_some, hlength', ← hrest']
      · rintro _ ⟨⟩
        rw [hlength', ← hrest']
        exact ⟨rfl, by rw [List.length_append]; omega⟩
  · have hdot' := mt (head_spread_iff hns (by decide) (by decide)).1 hdot
    rw [afterSign?_plain hds hx hdot, afterSign?_plain hds hy hdot']
    refine ⟨?_, ?_⟩
    · rw [Option.map_some, hlength, hdrop]
    · rintro _ ⟨⟩
      rw [hlength, hdrop]
      exact ⟨rfl, hshort⟩

theorem numberSpan?_spread (hs : Sound before ms) :
    numberSpan? (spread ms) =
      (numberSpan? (chars ms)).map (fun r => (r.1, spread (ms.drop r.1.length))) ∧
    ∀ r, numberSpan? (chars ms) = some r → r.2 = chars (ms.drop r.1.length) ∧ 0 < r.1.length := by
  by_cases hminus : (chars ms).head? = some '-'
  · obtain ⟨ns, rfl⟩ := hs.of_head hminus (by decide)
    obtain ⟨hy, hx⟩ := afterSign?_spread ['-'] hs.tail
    rw [spread_close, chars_cons, numberSpan?_minus, numberSpan?_minus, hy]
    cases hspan : afterSign? ['-'] (chars ns) with
    | none => exact ⟨rfl, nofun⟩
    | some r =>
        obtain ⟨hrest, hlong⟩ := hx r hspan
        obtain ⟨k, hk⟩ : ∃ k, r.1.length = k + 1 := ⟨r.1.length - 1, by omega⟩
        refine ⟨?_, ?_⟩
        · rw [Option.map_some, Option.map_some, hk]
          rfl
        · rintro _ ⟨⟩
          rw [hrest, hk]
          exact ⟨rfl, Nat.succ_pos k⟩
  · have hminus' := mt (head_spread_iff hs (by decide) (by decide)).1 hminus
    rw [numberSpan?_of_ne hminus, numberSpan?_of_ne hminus']
    exact afterSign?_spread [] hs

theorem number_follows (hs : Sound before ms) :
    Follows ms (number? (chars ms)) (number? (spread ms)) := by
  obtain ⟨hspan, hrest⟩ := numberSpan?_spread hs
  refine .of_eq ?_ ?_
  · rw [number?, number?, hspan]
    cases hx : numberSpan? (chars ms) with
    | none => rfl
    | some r =>
        obtain ⟨ds, rest⟩ := r
        obtain ⟨hr, -⟩ := hrest _ hx
        dsimp only at hr
        subst hr
        dsimp only [Option.map_some, Option.bind_some]
        rw [head_any_spread (hs.drop _) mayFollowLiteral_space]
  · intro s hsome
    rw [number?, Option.bind_eq_some_iff] at hsome
    obtain ⟨⟨ds, rest⟩, hx, hsome⟩ := hsome
    dsimp only at hsome
    split at hsome
    · rw [Option.map_eq_some_iff] at hsome
      obtain ⟨k, -, ⟨⟩⟩ := hsome
      exact ⟨(hrest _ hx).2, nofun⟩
    · cases hsome

/-! ### Comments -/

/-- An end that spaces neither bring about nor, outside of it, keep away. -/
structure Ending (stop : List Char → Bool) (length : List Char → Nat) : Prop where
  space (cs : List Char) : stop (' ' :: cs) = false
  before (ms : Marked) : stop (spread ms) = true → stop (chars ms) = true
  kept (ms : Marked) : stop (chars ms) = true → clear (ms.take (length (chars ms))) = true →
    stop (spread ms) = true ∧ length (spread ms) = length (chars ms)
  pos (cs : List Char) : 0 < length cs

namespace Ending

variable {stop : List Char → Bool} {length : List Char → Nat}

theorem short : Ending (begins ['}', '}']) fun _ => 2 where
  space _ := rfl
  before ms h := by
    rw [begins_spread (by decide), Bool.and_eq_true] at h
    exact h.1
  kept ms h hclear := by
    rw [begins_spread (by decide), h]
    exact ⟨hclear, rfl⟩
  pos _ := Nat.two_pos

theorem long : Ending atLongEnd longEndLength where
  space _ := rfl
  before ms h := by
    rw [atLongEnd, begins_spread (by decide), begins_spread (by decide)] at h
    rw [atLongEnd]
    cases hplain : begins ['-', '-', '}', '}'] (chars ms) with
    | true => rfl
    | false =>
        rw [hplain, Bool.false_and, Bool.false_or, Bool.and_eq_true] at h
        rw [h.1]
        rfl
  kept ms h hclear := by
    rw [atLongEnd, longEndLength, begins_spread (by decide), begins_spread (by decide)]
    rw [atLongEnd] at h
    rw [longEndLength] at hclear ⊢
    cases hplain : begins ['-', '-', '}', '}'] (chars ms) with
    | true =>
        rw [hplain, if_pos rfl] at hclear
        simp [hclear]
    | false =>
        rw [hplain, Bool.false_or] at h
        rw [hplain] at hclear
        simp only [Bool.false_eq_true, if_false] at hclear
        simp [h, hclear]
  pos cs := by
    rw [longEndLength]
    split <;> decide

theorem upTo?_none (he : Ending stop length) (h : upTo? stop (chars ms) = none) :
    upTo? stop (spread ms) = none := by
  induction ms with
  | nil => exact h
  | cons m ms ih =>
      obtain ⟨c, gap⟩ := m
      rw [chars_cons, upTo?] at h
      split at h
      · cases h
      · next hstop =>
          have hx := ih (Option.map_eq_none_iff.1 h)
          have hopen : upTo? stop (spread ((c, false) :: ms)) = none := by
            rw [spread_close, upTo?, if_neg, hx]
            · rfl
            · exact fun hy => hstop (he.before ((c, false) :: ms) hy)
          cases gap with
          | false => exact hopen
          | true =>
              rw [spread_gap, upTo?, if_neg (by simp [he.space])]
              exact Option.map_eq_none_iff.2 hopen

theorem upTo?_some (he : Ending stop length) {n : Nat} (h : upTo? stop (chars ms) = some n)
    (hclear : clear (ms.take (n + length (chars (ms.drop n)))) = true) :
    upTo? stop (spread ms) = some n ∧
      length ((spread ms).drop n) = length (chars (ms.drop n)) := by
  induction ms generalizing n with
  | nil => exact ⟨h, by rw [spread_nil, List.drop_nil, List.drop_nil, chars_nil]⟩
  | cons m ms ih =>
      obtain ⟨c, gap⟩ := m
      rw [chars_cons, upTo?] at h
      split at h
      · next hstop =>
          cases h
          rw [Nat.zero_add] at hclear
          obtain ⟨hy, hlength⟩ := he.kept ((c, gap) :: ms) hstop hclear
          refine ⟨?_, hlength⟩
          revert hy
          cases gap with
          | false =>
              intro hy
              rw [spread_close] at hy ⊢
              rw [upTo?, if_pos hy]
          | true =>
              intro hy
              rw [spread_gap, he.space] at hy
              cases hy
      · next hstop =>
          obtain ⟨k, hk, rfl⟩ := Option.map_eq_some_iff.1 h
          rw [Nat.add_right_comm, List.drop_succ_cons, List.take_succ_cons, clear_cons,
            Bool.and_eq_true] at hclear
          obtain ⟨hgap, hclear⟩ := hclear
          cases gap with
          | true => cases hgap
          | false =>
              obtain ⟨hy, hlength⟩ := ih hk hclear
              refine ⟨?_, hlength⟩
              rw [spread_close, upTo?, if_neg, hy]
              · rfl
              · exact fun hy => hstop (he.before ((c, false) :: ms) hy)

theorem comment_follows (he : Ending stop length) (left : Bool) :
    Follows ms (comment? left stop length (chars ms)) (comment? left stop length (spread ms)) := by
  rw [comment?, comment?]
  cases hx : upTo? stop (chars ms) with
  | none =>
      rw [he.upTo?_none hx]
      exact .never
  | some n =>
      refine ⟨nofun, ?_, ?_, ?_⟩
      · rintro _ ⟨⟩ hclear
        dsimp only at hclear
        rw [← chars_drop] at hclear
        obtain ⟨hy, hlength⟩ := he.upTo?_some hx hclear
        rw [hy, Option.map_some]
        dsimp only
        rw [hlength, (spread_take_drop hclear).1, chars_drop]
      · rintro _ ⟨⟩
        have hpos := he.pos ((chars ms).drop n)
        dsimp only
        omega
      · rintro _ ⟨⟩
        exact nofun

end Ending

/-! ### Opening braces -/

/-- A tag of nothing but a mark of the other branch, behind a number of characters. -/
theorem bareInverse_follows (left : Bool) {mark : List Char} {k : Nat}
    (hs : Sound before (ms.drop k)) (hmark : mark ≠ [] ∧ ' ' ∉ mark ∧ '}' ∉ mark) :
    Follows ms (bareInverse? left k mark (chars (ms.drop k)))
      (bareInverse? left k mark (spread (ms.drop k))) := by
  obtain ⟨hne, hspace, hbrace⟩ := hmark
  refine .bind ?_ fun rest hx => ?_
  · intro hx
    rw [afterPrefix?_spread_eq hs hspace hbrace, hx]
    rfl
  · have hrest := (behind_text hs hbrace (Option.isSome_of_eq_some hx)).2
    obtain ⟨rfl, -⟩ := afterPrefix?_chars hx
    refine ⟨_, by rw [afterPrefix?_spread_eq hs hspace hbrace, hx]; rfl, ?_⟩
    have hlast : (mark.reverse ++ before).head? ≠ some '}' := by
      rw [List.head?_append_of_ne_nil _ (by simpa using hne), List.head?_reverse]
      exact fun h => hbrace (List.mem_of_getLast? h)
    obtain ⟨hblanks, hdrop⟩ := blanks_spread hrest hlast
    rw [hblanks, hdrop, ← chars_drop, List.drop_drop, List.drop_drop]
    exact .closing _ fun c => ⟨rfl, nofun⟩

/-- Behind the opening braces of a tag, and a tilde behind them, the two texts go on alike. -/
theorem opened (hs : Sound before ms) (htag : begins ['{', '{'] (chars ms) = true) :
    let left := begins ['~'] ((chars ms).drop 2)
    let skip := if left then 3 else 2
    begins ['~'] ((spread ms).drop 2) = left ∧
      (spread ms).drop skip = spread (ms.drop skip) ∧
      ∃ behind, Sound behind (ms.drop skip) ∧ behind.head? ≠ some '}' := by
  have hbraces : (spread ms).drop 2 = spread (ms.drop 2) ∧ Sound ('{' :: '{' :: before) (ms.drop 2) :=
    behind_text hs (by decide) htag
  refine ⟨?_, ?_⟩
  · rw [hbraces.1, begins_spread_eq hbraces.2 (by decide) (by decide), chars_drop]
  · cases htilde : begins ['~'] ((chars ms).drop 2) with
    | false => exact ⟨hbraces.1, _, hbraces.2, by rintro ⟨⟩⟩
    | true =>
        rw [← chars_drop] at htilde
        have hbehind : (spread (ms.drop 2)).drop 1 = spread ((ms.drop 2).drop 1) ∧
            Sound ('~' :: '{' :: '{' :: before) ((ms.drop 2).drop 1) :=
          behind_text hbraces.2 (by decide) htilde
        rw [← hbraces.1, List.drop_drop, List.drop_drop] at hbehind
        exact ⟨hbehind.1, _, hbehind.2, by rintro ⟨⟩⟩

/-- A rule for a mark behind the opening braces. -/
theorem mark_follows {mark : List Char} {l : Lexeme} {k : Nat} (hs : Sound before (ms.drop k))
    (hmark : mark ≠ [] ∧ ' ' ∉ mark ∧ '}' ∉ mark) :
    Follows ms (if begins mark (chars (ms.drop k)) then some ⟨some l, k + mark.length, .tag⟩ else none)
      (if begins mark (spread (ms.drop k)) then some ⟨some l, k + mark.length, .tag⟩ else none) := by
  rw [begins_spread_eq hs hmark.2.1 hmark.2.2]
  exact .ite (.const (Nat.add_pos_right k (List.length_pos_iff.2 hmark.1)) nofun) .never

theorem chain_follows {left : Bool} {k : Nat} (hs : Sound before (ms.drop k)) :
    Follows ms
      ((afterPrefix? "else".toList (chars (ms.drop k))).bind fun r =>
        if r.head?.any isWordChar then none else some ⟨some (.openChain left), k + 4, .tag⟩)
      ((afterPrefix? "else".toList (spread (ms.drop k))).bind fun r =>
        if r.head?.any isWordChar then none else some ⟨some (.openChain left), k + 4, .tag⟩) := by
  have hy := afterPrefix?_spread_eq (p := "else".toList) hs (by decide) (by decide)
  refine .bind ?_ fun rest hx => ?_
  · intro hx
    rw [hy, hx]
    rfl
  · obtain ⟨rfl, -⟩ := afterPrefix?_chars hx
    refine ⟨_, by rw [hy, hx]; rfl, ?_⟩
    rw [head_any_spread (hs.drop _) (by decide)]
    exact .ite .never (.const (Nat.succ_pos _) nofun)

theorem opening_follows (hs : Sound before ms) (htag : begins ['{', '{'] (chars ms) = true) :
    Follows ms (opening (chars ms)) (opening (spread ms)) := by
  obtain ⟨hleft, hdrop, behind, hrest, hbehind⟩ := opened hs htag
  have hskip : 0 < if begins ['~'] ((chars ms).drop 2) then 3 else 2 := by split <;> decide
  unfold opening
  dsimp only
  rw [hleft, hdrop]
  generalize begins ['~'] ((chars ms).drop 2) = left at *
  generalize (if left = true then 3 else 2) = skip at *
  obtain ⟨hblanks, hword⟩ := blanks_spread hrest hbehind
  have hword' := hrest.drop (blanks (chars (ms.drop skip)))
  rw [List.drop_drop] at hword'
  rw [hblanks, hword, ← chars_drop, ← chars_drop, List.drop_drop,
    begins_spread_eq hrest (by decide) (by decide)]
  refine .ite (Ending.long.comment_follows left) ?_
  have hremark : begins ['!'] (spread (ms.drop skip)) = begins ['!'] (chars (ms.drop skip)) :=
    begins_spread_eq hrest (by decide) (by decide)
  rw [hremark]
  refine .getD (.firstRule ?_) hskip nofun
  exact .cons (mark_follows hrest (by decide)) <|
    .cons (mark_follows hrest (by decide)) <|
    .cons (mark_follows hrest (by decide)) <|
    .cons (mark_follows hrest (by decide)) <|
    .cons (mark_follows hrest (by decide)) <|
    .cons (bareInverse_follows left hrest (by decide)) <|
    .cons (bareInverse_follows left hword' (by decide)) <|
    .cons (mark_follows hrest (by decide)) <|
    .cons (chain_follows hword') <|
    .cons (mark_follows hrest (by decide)) <|
    .cons (mark_follows hrest (by decide)) <|
    .cons (.ite (Ending.short.comment_follows left) .never) <|
    .cons (mark_follows hrest (by decide)) .nil

/-! ## Tags -/

/-- Inside a tag, where no space is put before the first character. -/
theorem tag_follows_open (hs : Sound before ((c, false) :: ms)) :
    Follows ((c, false) :: ms) (tagStep (c :: chars ms)) (tagStep (c :: spread ms)) := by
  have hrest := hs.tail
  have hsign : ∀ l : Lexeme, Follows ((c, false) :: ms) (some ⟨some l, 1, .tag⟩)
      (some ⟨some l, 1, .tag⟩) := fun _ => .const Nat.one_pos nofun
  have htag : atTag (c :: spread ms) = atTag (c :: chars ms) :=
    begins_spread_eq hs (by decide) (by decide)
  unfold tagStep
  dsimp only
  refine .ite_begins (by decide) (by decide) nofun <| .ite_begins (by decide) (by decide) nofun ?_
  rw [htag]
  split
  · next hopen => exact opening_follows hs hopen
  refine .ite (hsign _) <| .ite (hsign _) <| .ite (hsign _) <|
    .ite_begins (by decide) (by decide) nofun ?_
  rw [head_any_spread hrest mayFollowName_space]
  refine .ite (hsign _) <| .ite (hsign _) ?_
  split
  · next hblank =>
      have hc : (c :: before).head? ≠ some '}' := by
        rintro ⟨⟩
        revert hblank
        decide
      have hblanks : blanks (c :: spread ms) = blanks (c :: chars ms) := by
        rw [blanks, blanks, List.takeWhile_cons_of_pos hblank, List.takeWhile_cons_of_pos hblank]
        exact congrArg (· + 1) (blanks_spread hrest hc).1
      have hpos : 0 < blanks (c :: chars ms) := by
        rw [blanks, List.takeWhile_cons_of_pos hblank]
        exact Nat.succ_pos _
      rw [hblanks]
      exact .const hpos nofun
  · refine .firstRule ?_
    exact .cons closingTag_follows <|
      .cons (string_follows (by decide) (by decide) (by decide) hrest) <|
      .cons (string_follows (by decide) (by decide) (by decide) hrest) <|
      .cons (.ite (hsign _) .never) <|
      .cons (literal_follows hs (by decide) (by decide) (by decide)) <|
      .cons (literal_follows hs (by decide) (by decide) (by decide)) <|
      .cons (literal_follows hs (by decide) (by decide) (by decide)) <|
      .cons (literal_follows hs (by decide) (by decide) (by decide)) <|
      .cons (number_follows hs) <| .cons (openNames_follows hs) <|
      .cons (.ite (hsign _) .never) <| .cons (name_follows hs) <|
      .cons (bracketed_follows hrest) <| .cons (hsign _) .nil

theorem ite_some_ne_none {p : Prop} [Decidable p] {s : Step} {a : Option Step} (h : a ≠ none) :
    (if p then some s else a) ≠ none := by
  split
  · exact Option.some_ne_none s
  · exact h

/-- What does not open a tag is one of its signs, if nothing else. -/
theorem tagStep_ne_none (h : atTag (c :: cs) = false) : tagStep (c :: cs) ≠ none := by
  have hlast : ∀ (rules : List (Option Step)) (s : Step), some s ∈ rules →
      firstRule rules ≠ none := by
    intro rules s hs hnone
    exact absurd (List.findSome?_eq_none_iff.1 hnone _ hs) (Option.some_ne_none s)
  unfold tagStep
  rw [h]
  refine ite_some_ne_none <| ite_some_ne_none <| ite_some_ne_none <| ite_some_ne_none <|
    ite_some_ne_none <| ite_some_ne_none <| ite_some_ne_none <| ite_some_ne_none <|
    ite_some_ne_none <| hlast _ ⟨some .invalid, 1, .tag⟩ ?_
  simp

/-- Inside a tag, a space before the first character is a space put into what is taken. -/
theorem tag_follows {gap : Bool} (hs : Sound before ((c, gap) :: ms)) :
    Follows ((c, gap) :: ms) (tagStep (c :: chars ms)) (tagStep (spread ((c, gap) :: ms))) := by
  have hopen := tag_follows_open (hs.tail.cons (c := c))
  cases gap with
  | false => exact hopen
  | true =>
      obtain ⟨rfl, -⟩ := hs.1 rfl
      refine ⟨fun hnone => absurd hnone (tagStep_ne_none rfl), fun {s} hsome hclear => ?_,
        hopen.pos, hopen.mode⟩
      obtain ⟨k, hk⟩ : ∃ k, s.length = k + 1 :=
        ⟨s.length - 1, by have := hopen.pos hsome; omega⟩
      rw [hk, List.take_succ_cons] at hclear
      cases hclear

end Lexeme

end Template

end ProxyFleet
