import ProxyFleet.Proofs.Template.Spaces.Tags

/-!
# Scanning a text with spaces put into it

In plain text and in raw blocks a step takes what it took and the spaces among it (`Echoes`): it
stops at opening braces and backslashes, where no space is put. In a tag it takes the same, if no
space is put into what it takes.

So if spaces are put into plain text only (`textOnly`), the scanner goes through both texts in step:
it is inside of the same at every step, and what it yields differs in plain text alone.
-/

namespace ProxyFleet

namespace Template

open Marked

namespace Lexeme

variable {ms : Marked} {before : List Char} {c : Char}

/-! ## Plain text -/

/-- A lexeme, and the same with spaces put into it if it is plain text. -/
inductive Spaced : Lexeme → Lexeme → Prop
  | same (l : Lexeme) : Spaced l l
  | content {before : List Char} {ms : Marked} (hs : Sound before ms) :
      Spaced (.content (String.ofList (chars ms))) (.content (String.ofList (spread ms)))

/-- Plain text is no other lexeme. -/
theorem Spaced.eq_iff {l l' m : Lexeme} (h : Spaced l l') (hm : ∀ s, m ≠ .content s) :
    l = m ↔ l' = m := by
  cases h with
  | same => rfl
  | content => exact iff_of_false (fun h => hm _ h.symm) (fun h => hm _ h.symm)

/-- How a rule takes the spaces: it takes the same characters and the spaces among them. -/
structure Echoes (before : List Char) (ms : Marked) (a b : Option Step) : Prop where
  fails : a = none → b = none
  takes {s : Step} : a = some s → ∃ s', b = some s' ∧ s'.mode = s.mode ∧
    Option.Rel Spaced s.lexeme s'.lexeme ∧
    (spread ms).drop s'.length = spread (ms.drop s.length)

namespace Echoes

theorem never : Echoes before ms none none := ⟨fun _ => rfl, fun h => by cases h⟩

theorem took {s s' : Step} (hmode : s'.mode = s.mode)
    (hlexeme : Option.Rel Spaced s.lexeme s'.lexeme)
    (hdrop : (spread ms).drop s'.length = spread (ms.drop s.length)) :
    Echoes before ms (some s) (some s') := by
  constructor
  · intro h
    cases h
  · intro t h
    cases h
    exact ⟨s', rfl, hmode, hlexeme, hdrop⟩

end Echoes

theorem contentOf_spaced (hs : Sound before ms) :
    Option.Rel Spaced (contentOf (chars ms)) (contentOf (spread ms)) := by
  rw [contentOf, contentOf]
  cases ms with
  | nil => exact .none
  | cons m ms =>
      obtain ⟨c, _ | _⟩ := m
      · exact .some (.content hs)
      · exact .some (.content hs)

/-- A condition on what is still to come that spaces do not change, and that holds before none. -/
structure Unspaced (stop : List Char → Bool) : Prop where
  space (cs : List Char) : stop (' ' :: cs) = false
  spread {before : List Char} {ms : Marked} : Sound before ms →
    stop (spread ms) = stop (chars ms)

namespace Unspaced

variable {stop : List Char → Bool}

/-- It is met where it was, behind the spaces before that. -/
theorem upTo?_spread (h : Unspaced stop) (hs : Sound before ms) :
    upTo? stop (Marked.spread ms) =
      (upTo? stop (chars ms)).map fun n => (Marked.spread (ms.take n)).length := by
  induction ms generalizing before with
  | nil =>
      rw [spread_nil, chars_nil, upTo?]
      split <;> rfl
  | cons m ms ih =>
      obtain ⟨c, gap⟩ := m
      have hopen : stop (c :: Marked.spread ms) = stop (c :: chars ms) :=
        @Unspaced.spread _ h before ((c, false) :: ms) hs.tail.cons
      cases gap with
      | false =>
          rw [spread_close, chars_cons, upTo?, upTo?, hopen, ih hs.tail]
          cases stop (c :: chars ms) with
          | true => rfl
          | false => simp [Option.map_map, Function.comp_def]
      | true =>
          have hstop : stop (c :: chars ms) = false := (h.spread hs).symm.trans (h.space _)
          rw [spread_gap, chars_cons, upTo?, upTo?, upTo?, h.space, hopen, hstop, ih hs.tail]
          simp [Option.map_map, Function.comp_def]

theorem tag : Unspaced atTag where
  space _ := rfl
  spread hs := begins_spread_eq hs (by decide) (by decide)

theorem fourOpen : Unspaced (begins fourOpen) where
  space _ := rfl
  spread hs := begins_spread_eq hs (by decide) (by decide)

theorem tagOrNul : Unspaced atTagOrNul where
  space _ := rfl
  spread hs := by
    rw [atTagOrNul, atTagOrNul, tag.spread hs, head_any_spread hs (by decide)]

theorem endsEscaped : Unspaced endsEscaped where
  space _ := rfl
  spread {before ms} hs := by
    rw [Lexeme.endsEscaped, Lexeme.endsEscaped, tag.spread hs,
      begins_spread_eq hs (by decide) (by decide), begins_spread_eq hs (by decide) (by decide)]
    cases ms with
    | nil => rfl
    | cons m ms => obtain ⟨c, _ | _⟩ := m <;> rfl

end Unspaced

/-- Cutting the text with its spaces where the text without them is cut. -/
theorem spread_cut (ms : Marked) (n : Nat) :
    (spread ms).take (spread (ms.take n)).length = spread (ms.take n) ∧
      (spread ms).drop (spread (ms.take n)).length = spread (ms.drop n) := by
  have h : spread ms = spread (ms.take n) ++ spread (ms.drop n) := by
    rw [← spread_append, List.take_append_drop]
  rw [h]
  exact ⟨List.take_left, List.drop_left⟩

theorem any_spread {f : Char → Bool} (hf : f ' ' = false) (ms : Marked) :
    (spread ms).any f = (chars ms).any f := by
  induction ms with
  | nil => rfl
  | cons m ms ih =>
      obtain ⟨c, _ | _⟩ := m
      · rw [spread_close, chars_cons, List.any_cons, List.any_cons, ih]
      · rw [spread_gap, chars_cons, List.any_cons, List.any_cons, List.any_cons, ih, hf,
          Bool.false_or]

/-- Where a tag begins, nothing is put between its braces. -/
theorem exists_of_atTag (hs : Sound before ms) (htag : atTag (chars ms) = true) :
    ∃ ns, ms = ('{', false) :: ('{', false) :: ns := by
  obtain ⟨rest, hrest⟩ := Option.isSome_iff_exists.1 htag
  have hms : chars ms = '{' :: '{' :: rest := eq_append_of_afterPrefix? hrest
  obtain ⟨ns, rfl⟩ := hs.of_head (c := '{') (by rw [hms]; rfl) (by decide)
  obtain ⟨ns', rfl⟩ := hs.tail.of_head (c := '{') (congrArg List.head? (List.cons.inj hms).2)
    (by decide)
  exact ⟨ns', rfl⟩

theorem escaped_echoes (hs : Sound before ms) (htag : atTag (chars ms) = true) :
    Echoes before ms (escapedStep (chars ms)) (escapedStep (spread ms)) := by
  obtain ⟨ns, rfl⟩ := exists_of_atTag hs htag
  have hstop := Unspaced.endsEscaped.upTo?_spread hs.tail.tail
  rw [escapedStep, escapedStep]
  change Echoes _ _ ((upTo? endsEscaped (chars ns)).bind _) ((upTo? endsEscaped (spread ns)).bind _)
  rw [hstop]
  cases hx : upTo? endsEscaped (chars ns) with
  | none => exact .never
  | some n =>
      have htake := (spread_cut ns n).1
      have hdrop := (spread_cut ns n).2
      have hnul : ('{' :: '{' :: spread (ns.take n)).any isNul =
          ('{' :: '{' :: chars (ns.take n)).any isNul :=
        any_spread (by decide) (('{', false) :: ('{', false) :: ns.take n)
      rw [Option.map_some, Option.bind_some, Option.bind_some]
      change Echoes _ _
        (if ('{' :: '{' :: (chars ns).take n).any isNul then none
          else some ⟨contentOf ('{' :: '{' :: (chars ns).take n), n + 2, .plain⟩)
        (if ('{' :: '{' :: (spread ns).take _).any isNul then none
          else some ⟨contentOf ('{' :: '{' :: (spread ns).take _), _ + 2, .plain⟩)
      rw [htake, ← chars_take, hnul]
      split
      · exact .never
      · have htext : Option.Rel Spaced (contentOf ('{' :: '{' :: chars (ns.take n)))
            (contentOf ('{' :: '{' :: spread (ns.take n))) := contentOf_spaced (hs.take (n + 2))
        exact .took rfl htext hdrop

/-! ### Raw blocks -/

theorem rawText_echoes (depth : Nat) (hs : Sound before ms) :
    Echoes before ms (rawStep.rawText depth (chars ms)) (rawStep.rawText depth (spread ms)) := by
  cases ms with
  | nil => exact .never
  | cons m ns =>
      obtain ⟨c, gap⟩ := m
      -- the first character is passed over, with the space before it
      have hstop : (upTo? (begins fourOpen) ((spread ((c, gap) :: ns)).drop 1)).map (· + 1) =
          (upTo? (begins fourOpen) (chars ns)).map
            fun n => (spread (((c, gap) :: ns).take (n + 1))).length := by
        have hns := Unspaced.fourOpen.upTo?_spread hs.tail
        cases gap with
        | false =>
            change (upTo? _ (spread ns)).map (· + 1) = _
            rw [hns, Option.map_map]
            rfl
        | true =>
            obtain ⟨rfl, -⟩ := hs.1 rfl
            have hbrace : begins fourOpen ('}' :: spread ns) = false := rfl
            change (upTo? _ ('}' :: spread ns)).map (· + 1) = _
            rw [upTo?, hbrace, hns, if_neg Bool.false_ne_true, Option.map_map, Option.map_map]
            rfl
      have hempty : (spread ((c, gap) :: ns)).isEmpty = false := by cases gap <;> rfl
      rw [rawStep.rawText, rawStep.rawText, hempty]
      change Echoes _ _ ((upTo? (begins fourOpen) (chars ns)).bind _) _
      cases hx : upTo? (begins fourOpen) (chars ns) with
      | none =>
          rw [hx, Option.map_none, Option.map_eq_none_iff] at hstop
          rw [hstop]
          exact .never
      | some n =>
          rw [hx, Option.map_some, Option.map_eq_some_iff] at hstop
          obtain ⟨k, hk, hlength⟩ := hstop
          obtain ⟨htake, hdrop⟩ := spread_cut ((c, gap) :: ns) (n + 1)
          rw [← hlength] at htake hdrop
          rw [hk, Option.bind_some]
          change Echoes _ _
            (if ((chars ((c, gap) :: ns)).take (n + 1)).any isNul then none
              else some ⟨contentOf ((chars ((c, gap) :: ns)).take (n + 1)), n + 1, .raw depth⟩)
            (if ((spread ((c, gap) :: ns)).take (k + 1)).any isNul then none
              else some ⟨contentOf ((spread ((c, gap) :: ns)).take (k + 1)), k + 1, .raw depth⟩)
          rw [htake, ← chars_take, any_spread (by decide)]
          split
          · exact .never
          · exact .took rfl (contentOf_spaced (hs.take (n + 1))) hdrop

/-- What a rule takes without spaces in it is the same. -/
theorem echoes_of_clear {a b : Option Step} (hfails : a = none → b = none)
    (htakes : ∀ s, a = some s → clear (ms.take s.length) = true ∧ b = some s) :
    Echoes before ms a b := by
  refine ⟨hfails, fun {s} hs => ?_⟩
  obtain ⟨hclear, hb⟩ := htakes s hs
  refine ⟨s, hb, rfl, ?_, (spread_take_drop hclear).2⟩
  cases s.lexeme with
  | none => exact .none
  | some l => exact .some (.same l)

theorem rawEnd?_spread (hs : Sound before ms) :
    (rawEnd? (chars ms) = none → rawEnd? (spread ms) = none) ∧
    ∀ name, rawEnd? (chars ms) = some name → clear (ms.take (name.length + 9)) = true →
      rawEnd? (spread ms) = some name := by
  have hprefix := afterPrefix?_spread_eq (p := fourOpen ++ ['/']) hs (by decide) (by decide)
  rw [rawEnd?, rawEnd?, hprefix]
  cases hx : afterPrefix? (fourOpen ++ ['/']) (chars ms) with
  | none => exact ⟨fun _ => rfl, nofun⟩
  | some rest =>
      obtain ⟨rfl, -⟩ := afterPrefix?_chars hx
      obtain ⟨htake, hdrop, hdrop', -⟩ := takeWhile_spread (f := isNameChar)
        (hs.drop (fourOpen ++ ['/']).length) (by decide) (fun _ => by decide)
      rw [Option.map_some, Option.bind_some, Option.bind_some]
      dsimp only
      rw [htake, hdrop, hdrop', begins_spread (by decide)]
      generalize hname : (chars (ms.drop (fourOpen ++ ['/']).length)).takeWhile isNameChar = name
      cases hend : !name.isEmpty && begins fourClose
          (chars ((ms.drop (fourOpen ++ ['/']).length).drop name.length)) with
      | false =>
          rw [← Bool.and_assoc, hend]
          exact ⟨fun _ => rfl, nofun⟩
      | true =>
          refine ⟨nofun, ?_⟩
          rintro _ ⟨⟩ hclear
          have hlength : name.length + 9 =
              (fourOpen ++ ['/']).length + (name.length + fourClose.length) := by
            change _ = 5 + (_ + 4)
            omega
          rw [hlength] at hclear
          rw [← Bool.and_assoc, hend, (clear_take_drop (clear_take_drop hclear).2).2]
          rfl

theorem raw_echoes {depth : Nat} (hs : Sound before ms)
    (h : ∀ s, rawStep depth (chars ms) = some s →
      s.mode = .raw depth ∨ clear (ms.take s.length) = true) :
    Echoes before ms (rawStep depth (chars ms)) (rawStep depth (spread ms)) := by
  have htext := rawText_echoes depth hs
  have hprefix := afterPrefix?_spread_eq (p := fourOpen) hs (by decide) (by decide)
  revert h
  rw [rawStep, rawStep, hprefix]
  cases hx : afterPrefix? fourOpen (chars ms) with
  | none => exact fun _ => htext
  | some rest =>
      obtain ⟨rfl, -⟩ := afterPrefix?_chars hx
      have hclear := clear_of_begins hs (by decide) (Option.isSome_of_eq_some hx)
      have hbehind := (behind_text hs (by decide) (Option.isSome_of_eq_some hx)).2
      rw [Option.map_some]
      cases hns : ms.drop fourOpen.length with
      | nil => exact fun _ => htext
      | cons m ns =>
          obtain ⟨c, gap⟩ := m
          rw [hns] at hbehind
          obtain rfl := hbehind.gap_eq_false_of_head (by rintro ⟨⟩)
          rw [chars_cons, spread_close]
          dsimp only
          by_cases hc : (c != '/') = true
          · intro _
            rw [if_pos hc, if_pos hc]
            refine echoes_of_clear nofun ?_
            rintro _ ⟨⟩
            exact ⟨hclear, rfl⟩
          · rw [if_neg hc, if_neg hc]
            obtain ⟨hnone, hsome⟩ := rawEnd?_spread hs
            cases hend : rawEnd? (chars ms) with
            | none =>
                rw [hnone hend]
                exact fun _ => htext
            | some name =>
                intro h
                -- the end of a raw block is no plain text
                have hend' : clear (ms.take (name.length + 9)) = true := by
                  dsimp only at h
                  by_cases hdepth : depth ≤ 1
                  · obtain hmode | hclear := h _ (if_pos hdepth)
                    · cases hmode
                    · exact hclear
                  · obtain hmode | hclear := h _ (if_neg hdepth)
                    · have := Mode.raw.inj hmode
                      omega
                    · exact hclear
                rw [hsome name hend hend']
                dsimp only
                rw [(spread_take_drop hend').1]
                refine echoes_of_clear (fun h => h) fun s hs => ⟨?_, hs⟩
                split at hs <;> cases hs <;> exact hend'

/-- A last character that is not a closing brace is the last of both texts. -/
theorem last_iff {c : Char} (hs : Sound before ms) (hc : c ≠ '}') :
    ((chars ms).reverse.head? = some c ↔ ∃ ns, ms = ns ++ [(c, false)]) ∧
    ((spread ms).reverse.head? = some c ↔ ∃ ns, ms = ns ++ [(c, false)]) := by
  rcases List.eq_nil_or_concat ms with rfl | ⟨ns, ⟨d, gap⟩, rfl⟩
  · refine ⟨⟨nofun, ?_⟩, ⟨nofun, ?_⟩⟩ <;>
    · rintro ⟨ns, hns⟩
      exact absurd hns.symm (List.concat_ne_nil _ _)
  · have hlast := hs.drop ns.length
    rw [List.concat_eq_append, List.drop_left] at hlast
    have hchars : (chars (ns ++ [(d, gap)])).reverse.head? = some d := by
      rw [chars_append, List.reverse_append]
      rfl
    have hspread : (spread (ns ++ [(d, gap)])).reverse.head? = some d := by
      rw [spread_append, List.reverse_append]
      cases gap <;> rfl
    rw [List.concat_eq_append, hchars, hspread]
    have hiff : some d = some c ↔ ∃ ns', ns ++ [(d, gap)] = ns' ++ [(c, false)] := by
      constructor
      · rintro ⟨⟩
        exact ⟨ns, by rw [hlast.gap_eq_false hc]⟩
      · rintro ⟨ns', h⟩
        obtain ⟨-, ⟨⟩⟩ := List.append_inj' h rfl
        rfl
    exact ⟨hiff, hiff⟩

/-- How many backslashes a text ends with, up to two, does not depend on spaces. -/
theorem backslashes {ps : Marked} (hs : Sound before ps) :
    (∃ qs, ps = qs ++ [('\\', false)] ++ [('\\', false)]) ∨
    (∃ qs, ps = qs ++ [('\\', false)] ∧ (chars qs).reverse.head? ≠ some '\\' ∧
      (spread qs).reverse.head? ≠ some '\\') ∨
    ((chars ps).reverse.head? ≠ some '\\' ∧ (spread ps).reverse.head? ≠ some '\\') := by
  obtain ⟨hchars, hspread⟩ := last_iff (c := '\\') hs (by decide)
  by_cases hlast : ∃ qs, ps = qs ++ [('\\', false)]
  · obtain ⟨qs, rfl⟩ := hlast
    have hqs := hs.take qs.length
    rw [List.take_left] at hqs
    obtain ⟨hchars', hspread'⟩ := last_iff (c := '\\') hqs (by decide)
    by_cases hlast' : ∃ rs, qs = rs ++ [('\\', false)]
    · obtain ⟨rs, rfl⟩ := hlast'
      exact .inl ⟨rs, rfl⟩
    · exact .inr (.inl ⟨qs, rfl, mt hchars'.1 hlast', mt hspread'.1 hlast'⟩)
  · exact .inr (.inr ⟨mt hchars.1 hlast, mt hspread.1 hlast⟩)

theorem reverse_backslash {qs : Marked} :
    (chars (qs ++ [('\\', false)])).reverse = '\\' :: (chars qs).reverse ∧
    (spread (qs ++ [('\\', false)])).reverse = '\\' :: (spread qs).reverse := by
  rw [chars_append, spread_append, List.reverse_append, List.reverse_append]
  exact ⟨rfl, rfl⟩

/-- A text before a tag without the backslash at its end. -/
theorem dropLast_spaced {qs : Marked} (hs : Sound before (qs ++ [(c, false)])) :
    Option.Rel Spaced (contentOf (chars (qs ++ [(c, false)])).dropLast)
      (contentOf (spread (qs ++ [(c, false)])).dropLast) := by
  have hqs := hs.take qs.length
  rw [List.take_left] at hqs
  rw [chars_append, spread_append, chars_cons, spread_close, chars_nil, spread_nil,
    List.dropLast_concat, List.dropLast_concat]
  exact contentOf_spaced hqs

theorem plain_echoes (hs : Sound before ms) :
    Echoes before ms (plainStep (chars ms)) (plainStep (spread ms)) := by
  by_cases hms : ms = []
  · subst hms
    exact .took rfl (.some (.same _)) rfl
  have hempty : (chars ms).isEmpty = false :=
    List.isEmpty_eq_false_iff.2 fun h => hms (List.map_eq_nil_iff.1 h)
  have hempty' : (spread ms).isEmpty = false :=
    List.isEmpty_eq_false_iff.2 fun h => hms (spread_eq_nil.1 h)
  have hlength : (upTo? atTagOrNul (spread ms)).getD (spread ms).length =
      (spread (ms.take ((upTo? atTagOrNul (chars ms)).getD (chars ms).length))).length := by
    rw [Unspaced.tagOrNul.upTo?_spread hs]
    cases upTo? atTagOrNul (chars ms) with
    | none =>
        rw [Option.map_none, Option.getD_none, Option.getD_none, length_chars, List.take_length]
    | some n => rfl
  rw [plainStep, plainStep, hlength, hempty, hempty']
  generalize (upTo? atTagOrNul (chars ms)).getD (chars ms).length = n
  have hzero : (spread (ms.take n)).length = 0 ↔ n = 0 := by
    rw [List.length_eq_zero_iff, spread_eq_nil, List.take_eq_nil_iff, or_iff_left hms]
  obtain ⟨htake, hdrop⟩ := spread_cut ms n
  rw [htake, hdrop, Unspaced.tag.spread (hs.drop n), chars_drop, ← chars_take,
    if_neg Bool.false_ne_true, if_neg Bool.false_ne_true]
  have htext := hs.take n
  generalize ms.take n = ps at *
  cases atTag ((chars ms).drop n) with
  | false =>
      rw [if_pos Bool.not_false, if_pos Bool.not_false]
      by_cases hn : n = 0
      · rw [if_pos hn, if_pos (hzero.2 hn)]
        exact .never
      · rw [if_neg hn, if_neg (mt hzero.1 hn)]
        exact .took rfl (contentOf_spaced htext) hdrop
  | true =>
      rw [if_neg (by decide), if_neg (by decide)]
      obtain ⟨qs, rfl⟩ | ⟨qs, rfl, hq, hq'⟩ | ⟨hp, hp'⟩ := backslashes htext
      · rw [reverse_backslash.1, reverse_backslash.2, reverse_backslash.1, reverse_backslash.2]
        exact .took rfl (dropLast_spaced htext) hdrop
      · rw [reverse_backslash.1, reverse_backslash.2]
        have hlast := dropLast_spaced htext
        split
        · next h => rw [(List.cons.inj h).2] at hq; exact absurd rfl hq
        · split
          · next h => rw [(List.cons.inj h).2] at hq'; exact absurd rfl hq'
          · exact .took rfl hlast hdrop
          · next h => exact absurd rfl (h _)
        · next h => exact absurd rfl (h _)
      · split
        · next h => rw [h] at hp; exact absurd rfl hp
        · next h => rw [h] at hp; exact absurd rfl hp
        · split
          · next h => rw [h] at hp'; exact absurd rfl hp'
          · next h => rw [h] at hp'; exact absurd rfl hp'
          · exact .took rfl (contentOf_spaced htext) hdrop

/-! ## Steps and runs -/

/-- Whether what a step takes stays plain text: not a tag, nor the beginning or the end of a raw
block. -/
def Step.isText (mode : Mode) (s : Step) : Bool :=
  match mode with
  | .plain | .escaped => true
  | .tag => false
  | .raw _ => s.mode = mode

/-- Whether the scanner meets the spaces put into a text in its plain text only. -/
def textOnly : Nat → Mode → Marked → Bool
  | 0, _, _ => false
  | fuel + 1, mode, ms =>
    match step mode (chars ms) with
    | none => true
    | some s => (s.isText mode || clear (ms.take s.length)) &&
      (s.lexeme = some .ending || textOnly fuel s.mode (ms.drop s.length))

variable {mode : Mode} {s : Step}

/-- Plain text goes on with something else at a tag only. -/
theorem atTag_of_plainStep {cs : List Char} (h : plainStep cs = some s) (hmode : s.mode ≠ .plain) :
    atTag (cs.drop s.length) = true := by
  unfold plainStep at h
  dsimp only at h
  split at h
  · cases h
    exact absurd rfl hmode
  · split at h
    · split at h
      · cases h
      · cases h
        exact absurd rfl hmode
    · next htag =>
        rw [Bool.not_eq_true, Bool.not_eq_false'] at htag
        split at h <;> cases h <;> exact htag

theorem escapedStep_mode {cs : List Char} (h : escapedStep cs = some s) : s.mode = .plain := by
  obtain ⟨n, -, hs⟩ := Option.bind_eq_some_iff.1 h
  dsimp only at hs
  split at hs <;> cases hs
  rfl

theorem rawText_mode {depth : Nat} {cs : List Char} (h : rawStep.rawText depth cs = some s) :
    s.mode = .raw depth := by
  unfold rawStep.rawText at h
  split at h
  · cases h
  · obtain ⟨n, -, hs⟩ := Option.bind_eq_some_iff.1 h
    dsimp only at hs
    split at hs <;> cases hs
    rfl

theorem rawStep_mode {depth : Nat} {cs : List Char} (h : rawStep depth cs = some s) :
    s.mode ≠ .escaped ∧ s.mode ≠ .tag := by
  have htext (h : rawStep.rawText depth cs = some s) : s.mode ≠ .escaped ∧ s.mode ≠ .tag := by
    rw [rawText_mode h]
    exact ⟨nofun, nofun⟩
  unfold rawStep at h
  split at h
  · split at h
    · cases h
      exact ⟨nofun, nofun⟩
    · split at h
      · split at h <;> cases h <;> exact ⟨nofun, nofun⟩
      · exact htext h
  · exact htext h

/-- Only plain text with a backslash before a tag makes the tag plain text. -/
theorem step_escaped (h : step mode (chars ms) = some s) (hmode : s.mode = .escaped)
    (hs : Sound before ms) : atTag (chars (ms.drop s.length)) = true := by
  rw [chars_drop]
  cases mode with
  | plain => exact atTag_of_plainStep h (hmode ▸ nofun)
  | escaped => rw [escapedStep_mode h] at hmode; cases hmode
  | raw depth => exact absurd hmode (rawStep_mode h).1
  | tag =>
      cases ms with
      | nil => cases h; cases hmode
      | cons m ms => exact absurd hmode ((tag_follows hs).mode h)

/-- One step through both texts. -/
theorem step_echoes (hs : Sound before ms) (hmode : mode = .escaped → atTag (chars ms) = true)
    (htext : ∀ s, step mode (chars ms) = some s →
      s.isText mode = true ∨ clear (ms.take s.length) = true) :
    Echoes before ms (step mode (chars ms)) (step mode (spread ms)) := by
  cases mode with
  | plain => exact plain_echoes hs
  | escaped => exact escaped_echoes hs (hmode rfl)
  | raw depth => exact raw_echoes hs fun s h => (htext s h).imp_left of_decide_eq_true
  | tag =>
      cases ms with
      | nil => exact echoes_of_clear nofun fun s h => ⟨by rw [List.take_nil]; rfl, h⟩
      | cons m ms =>
          have hfollows := tag_follows hs
          refine echoes_of_clear hfollows.fails fun s h => ?_
          obtain hfalse | hclear := htext s h
          · cases hfalse
          · exact ⟨hclear, hfollows.takes h hclear⟩

/-- The same lexeme, but for spaces in plain text; it may begin at another place. -/
def SpacedAt (x y : Lexeme × Place) : Prop := Spaced x.1 y.1

theorem ending_iff {l l' : Option Lexeme} (h : Option.Rel Spaced l l') :
    l = some .ending ↔ l' = some .ending := by
  cases h with
  | none => rfl
  | some h =>
      cases h with
      | same => rfl
      | content => exact iff_of_false nofun nofun

theorem yielded_spaced {l l' : Option Lexeme} {p q : Place} (h : Option.Rel Spaced l l') :
    List.Forall₂ SpacedAt (l.map (·, p)).toList (l'.map (·, q)).toList := by
  cases h with
  | none => exact .nil
  | some h => exact .cons h .nil

/-- A step yields its lexeme, if it has one; nothing follows the ending. -/
theorem scanFrom_step {fuel : Nat} {p : Place} {cs : List Char} (h : step mode cs = some s) :
    scanFrom (fuel + 1) mode p cs = if s.lexeme = some .ending then [(.ending, p)] else
      (s.lexeme.map (·, p)).toList ++
        scanFrom fuel s.mode (p.after (cs.take s.length)) (cs.drop s.length) := by
  rw [scanFrom, h]
  dsimp only
  split
  · next hl => rw [if_pos hl]
  · next l hne hl => rw [hl, if_neg fun h => hne (Option.some.inj h)]; rfl
  · next hl => rw [hl, if_neg nofun]; rfl

/-- What the scanner yields for both texts. -/
theorem scanFrom_spaced {fuel n : Nat} {p q : Place} (hs : Sound before ms)
    (hmode : mode = .escaped → atTag (chars ms) = true) (htext : textOnly fuel mode ms = true)
    (hn : fuel ≤ n) :
    List.Forall₂ SpacedAt (scanFrom fuel mode p (chars ms)) (scanFrom n mode q (spread ms)) := by
  induction fuel generalizing n mode before ms p q with
  | zero => cases htext
  | succ fuel ih =>
      obtain ⟨n, rfl⟩ : ∃ k, n = k + 1 := ⟨n - 1, by omega⟩
      rw [textOnly] at htext
      have hechoes : Echoes before ms (step mode (chars ms)) (step mode (spread ms)) := by
        refine step_echoes hs hmode fun s h => ?_
        rw [h] at htext
        exact Bool.or_eq_true_iff.1 (Bool.and_eq_true_iff.1 htext).1
      cases hstep : step mode (chars ms) with
      | none =>
          rw [scanFrom, scanFrom, hstep, hechoes.fails hstep]
          exact .cons (.same _) .nil
      | some s =>
          rw [hstep] at htext
          obtain ⟨s', hs', hmode', hlexeme, hdrop⟩ := hechoes.takes hstep
          rw [scanFrom_step hstep, scanFrom_step hs']
          by_cases hend : s.lexeme = some .ending
          · rw [if_pos hend, if_pos ((ending_iff hlexeme).1 hend)]
            exact .cons (.same _) .nil
          · rw [if_neg hend, if_neg (mt (ending_iff hlexeme).2 hend)]
            refine List.rel_append ?_ ?_
            · exact yielded_spaced hlexeme
            · rw [hmode', hdrop, ← chars_drop]
              refine ih (hs.drop s.length) (fun h => step_escaped hstep h hs) ?_ (by omega)
              exact (Bool.or_eq_true_iff.1 (Bool.and_eq_true_iff.1 htext).2).resolve_left
                fun h => hend (of_decide_eq_true h)

end Lexeme

end Template

end ProxyFleet
