import ProxyFleet.Proofs.Template.Spaces.Scan
import ProxyFleet.Proofs.Template.Spaces.Trees
import ProxyFleet.Template.Render

/-!
# What setting expressions apart changes

Before a template is read, its expressions are set apart from closing braces behind them. The pass
that does it looks for braces only, where the scanner knows texts in quotes, comments, flags,
backslashes and raw blocks. So the two agree on where an expression ends as long as each tag ends at
the first closing braces of its kind, and then the template says what it said. In a tag that holds
such braces before its end, a space can be put into a text in quotes.
-/

namespace ProxyFleet

namespace Template

open Marked

/-! ## Where the pass takes expressions to end -/

/-- What ends an expression of a kind. -/
def BracePlace.closing : BracePlace → List Char
  | .text => []
  | .two => ['}', '}']
  | .three => ['}', '}', '}']
  | .comment => ['-', '-', '}', '}']

namespace Lexeme

/-- How many characters the expression at the front of a text has, up to the first closing braces of
its kind. -/
def expressionLength? (cs : List Char) : Option Nat :=
  let closing := (openedBy (cs.drop 2)).closing
  (upTo? (begins closing) (cs.drop 2)).map fun n => n + closing.length + 2

/-- How many characters a tag at the front of a text has, if it ends as an expression does. A tag
between four braces has one more. -/
def tagLength? (cs : List Char) : Option Nat :=
  if atTag cs then
    (expressionLength? cs).bind fun n =>
      if begins fourOpen cs then
        if (cs.drop n).head? = some '}' then some (n + 1) else none
      else some n
  else none

/-- Whether all expressions that begin among the first characters of a text end among them. -/
def expressionsEnd : Nat → Nat → List Char → Bool
  | 0, _, _ => false
  | fuel + 1, n, cs =>
    match upTo? atTag cs with
    | none => true
    | some k => n ≤ k || (expressionLength? (cs.drop k)).any fun e =>
        k + e ≤ n && expressionsEnd fuel (n - (k + e)) (cs.drop (k + e))

/-- Whether every tag the scanner meets ends at the first closing braces of its kind, and all
expressions in plain text end there. The tag that the scanner is in begins with `tag`; `taken`
characters of it have been scanned. -/
def tagsEnd : Nat → Mode → List Char → Nat → List Char → Bool
  | 0, _, _, _, _ => false
  | fuel + 1, mode, tag, taken, cs =>
    match step mode cs with
    | none => false
    | some s =>
      let rest := cs.drop s.length
      if s.lexeme = some .ending then s.isText mode
      else if s.isText mode then
        expressionsEnd (cs.length + 1) s.length cs && tagsEnd fuel s.mode rest 0 rest
      else if mode = .tag then
        if s.mode = .tag then tagsEnd fuel .tag tag (taken + s.length) rest
        else tagLength? tag = some (taken + s.length) && tagsEnd fuel s.mode rest 0 rest
      else tagLength? cs = some s.length && tagsEnd fuel s.mode rest 0 rest

variable {cs : List Char} {ms : Marked} {place : BracePlace} {c : Char} {mode : Mode} {s : Step}

/-! ## The pass between tags -/

/-- The marks of a text that is plain at its front; a space may be put before all of it. -/
inductive Textual (cs : List Char) : Marked → Prop
  | joined : Textual cs (marked .text cs)
  | apart : Textual cs (gapFirst (marked .text cs))

theorem marked_of_not_atTag (h : atTag (c :: cs) = false) :
    marked .text (c :: cs) = (c, false) :: marked .text cs := by
  rw [marked]
  · rintro ds - rfl rfl
    cases h
  · rintro ds ⟨⟩
  · rintro ds ⟨⟩
  · rintro ds ⟨⟩

theorem stop_of_upTo? {stop : List Char → Bool} {k : Nat} (h : upTo? stop cs = some k) :
    stop (cs.drop k) = true := by
  induction cs generalizing k with
  | nil =>
      rw [upTo?] at h
      split at h
      · next hstop => cases h; exact hstop
      · cases h
  | cons c cs ih =>
      rw [upTo?] at h
      split at h
      · next hstop => cases h; exact hstop
      · obtain ⟨k, hk, rfl⟩ := Option.map_eq_some_iff.1 h
        exact ih hk

/-- Before the first opening braces the pass stays in plain text. -/
theorem marked_text_drop {n : Nat} (h : ∀ k, upTo? atTag cs = some k → n ≤ k) :
    (marked .text cs).drop n = marked .text (cs.drop n) := by
  induction cs generalizing n with
  | nil => rw [marked, List.drop_nil, List.drop_nil, marked]
  | cons c cs ih =>
      cases n with
      | zero => rfl
      | succ n =>
          rw [upTo?] at h
          cases htag : atTag (c :: cs) with
          | true =>
              rw [if_pos htag] at h
              exact absurd (h 0 rfl) (Nat.not_succ_le_zero n)
          | false =>
              rw [htag, if_neg Bool.false_ne_true] at h
              rw [marked_of_not_atTag htag, List.drop_succ_cons, List.drop_succ_cons]
              exact ih fun k hk => Nat.le_of_succ_le_succ (h (k + 1) (by rw [hk]; rfl))

theorem marked_of_not_closing (hplace : place ≠ .text) (h : begins place.closing (c :: cs) = false) :
    marked place (c :: cs) = (c, false) :: marked place cs := by
  rw [marked]
  · exact fun _ h => absurd h hplace
  · rintro ds rfl rfl rfl
    cases h
  · rintro ds rfl rfl rfl
    cases h
  · rintro ds rfl rfl rfl
    cases h

/-- The marks of what follows an expression: three closing braces have no space behind them. -/
def behind (place : BracePlace) (cs : List Char) : Marked :=
  if place = .three then marked .text cs else gapFirst (marked .text cs)

theorem behind_textual : Textual cs (behind place cs) := by
  unfold behind
  split
  · exact .joined
  · exact .apart

/-- Behind its closing braces the pass is in plain text. -/
theorem marked_closing (hplace : place ≠ .text) (h : begins place.closing cs = true) :
    clear ((marked place cs).take place.closing.length) = true ∧
      (marked place cs).drop place.closing.length = behind place (cs.drop place.closing.length) := by
  obtain ⟨rest, hrest⟩ := Option.isSome_iff_exists.1 h
  obtain rfl := eq_append_of_afterPrefix? hrest
  cases place with
  | text => exact absurd rfl hplace
  | two => exact ⟨rfl, rfl⟩
  | three => exact ⟨rfl, rfl⟩
  | comment => exact ⟨rfl, rfl⟩

/-- The pass puts no space into an expression. -/
theorem marked_expression (hplace : place ≠ .text) {n : Nat}
    (h : upTo? (begins place.closing) cs = some n) :
    clear ((marked place cs).take (n + place.closing.length)) = true ∧
      (marked place cs).drop (n + place.closing.length) =
        behind place (cs.drop (n + place.closing.length)) := by
  induction cs generalizing n with
  | nil =>
      cases place with
      | text => exact absurd rfl hplace
      | two => cases h
      | three => cases h
      | comment => cases h
  | cons c cs ih =>
      rw [upTo?] at h
      cases hclosing : begins place.closing (c :: cs) with
      | true =>
          rw [if_pos hclosing] at h
          cases h
          rw [Nat.zero_add]
          exact marked_closing hplace hclosing
      | false =>
          rw [hclosing, if_neg Bool.false_ne_true, Option.map_eq_some_iff] at h
          obtain ⟨k, hk, rfl⟩ := h
          rw [marked_of_not_closing hplace hclosing, Nat.succ_add]
          exact ih hk

theorem openedBy_ne_text (cs : List Char) : openedBy cs ≠ .text := by
  unfold openedBy
  split <;> nofun

theorem marked_atTag (h : atTag cs = true) {n : Nat} (hn : expressionLength? cs = some n) :
    clear ((marked .text cs).take n) = true ∧
      (marked .text cs).drop n = behind (openedBy (cs.drop 2)) (cs.drop n) := by
  obtain ⟨rest, hrest⟩ := Option.isSome_iff_exists.1 h
  obtain rfl := eq_append_of_afterPrefix? hrest
  obtain ⟨k, hk, rfl⟩ := Option.map_eq_some_iff.1 hn
  rw [show ['{', '{'] ++ rest = '{' :: '{' :: rest from rfl, marked]
  exact marked_expression (openedBy_ne_text rest) hk

/-- Nor does it put one into a tag that ends as an expression does. -/
theorem marked_tag {n : Nat} (hn : tagLength? cs = some n) :
    clear ((marked .text cs).take n) = true ∧ Textual (cs.drop n) ((marked .text cs).drop n) := by
  obtain ⟨h, hn⟩ := Option.ite_none_right_eq_some.1 hn
  obtain ⟨k, hk, hn⟩ := Option.bind_eq_some_iff.1 hn
  obtain ⟨hclear, hbehind⟩ := marked_atTag h hk
  split at hn
  · next hfour =>
      split at hn
      · next hbrace =>
          cases hn
          obtain ⟨rest, hrest⟩ := Option.isSome_iff_exists.1 hfour
          have hthree : openedBy (cs.drop 2) = .three := by
            rw [eq_append_of_afterPrefix? hrest]
            rfl
          rw [hthree, behind, if_pos rfl] at hbehind
          obtain ⟨ds, hds⟩ := List.head?_eq_some_iff.1 hbrace
          rw [hds, marked_of_not_atTag rfl] at hbehind
          rw [← List.drop_drop, ← List.drop_drop, hbehind, hds, List.take_add, hbehind]
          refine ⟨?_, .joined⟩
          rw [clear, List.all_append]
          exact Bool.and_eq_true_iff.2 ⟨hclear, rfl⟩
      · cases hn
  · cases hn
    exact ⟨hclear, hbehind ▸ behind_textual⟩

namespace Textual

/-- A space may only be put before a text that begins with a closing brace. -/
theorem eq_of_head (h : Textual cs ms) (hhead : cs.head? ≠ some '}') : ms = marked .text cs := by
  cases h with
  | joined => rfl
  | apart => exact gapFirst_marked hhead

theorem chars_eq (h : Textual cs ms) : chars ms = cs := by
  cases h with
  | joined => exact chars_marked .text cs
  | apart => exact (chars_gapFirst _).trans (chars_marked .text cs)

theorem eq_of_atTag (h : Textual cs ms) (htag : atTag cs = true) : ms = marked .text cs := by
  obtain ⟨rest, hrest⟩ := Option.isSome_iff_exists.1 htag
  obtain rfl := eq_append_of_afterPrefix? hrest
  exact h.eq_of_head nofun

/-- A space before the text is none behind its first character. -/
theorem drop_pos (h : Textual cs ms) {n : Nat} (hn : n ≠ 0) :
    ms.drop n = (marked .text cs).drop n := by
  obtain ⟨n, rfl⟩ := Nat.exists_eq_succ_of_ne_zero hn
  cases h with
  | joined => rfl
  | apart =>
      unfold gapFirst
      split
      · next hms => rw [hms]; rfl
      · rfl

/-- Where all expressions end before a place, the pass is in plain text there. -/
theorem drop {fuel n : Nat} (h : Textual cs ms) (hend : expressionsEnd fuel n cs = true) :
    Textual (cs.drop n) (ms.drop n) := by
  induction fuel generalizing n cs ms with
  | zero => cases hend
  | succ fuel ih =>
      by_cases hn : n = 0
      · subst hn
        exact h
      · rw [h.drop_pos hn]
        rw [expressionsEnd] at hend
        cases hk : upTo? atTag cs with
        | none => rw [marked_text_drop fun k hk' => by rw [hk] at hk'; cases hk']; exact .joined
        | some k =>
            rw [hk] at hend
            obtain hle | hany := Bool.or_eq_true_iff.1 hend
            · have hle := of_decide_eq_true hle
              rw [marked_text_drop fun k' hk' => by rw [hk] at hk'; cases hk'; exact hle]
              exact .joined
            · cases he : expressionLength? (cs.drop k) with
              | none => rw [he] at hany; cases hany
              | some e =>
                  rw [he] at hany
                  obtain ⟨hle, hrest⟩ := Bool.and_eq_true_iff.1 hany
                  have hle := of_decide_eq_true hle
                  have hmarks := (marked_atTag (stop_of_upTo? hk) he).2
                  rw [← marked_text_drop fun k' hk' => by rw [hk] at hk'; cases hk'; exact Nat.le_refl k,
                    List.drop_drop] at hmarks
                  have htextual : Textual (cs.drop (k + e)) ((marked .text cs).drop (k + e)) := by
                    rw [hmarks, ← List.drop_drop]
                    exact behind_textual
                  have htextual := ih htextual hrest
                  rw [List.drop_drop, List.drop_drop, Nat.add_sub_cancel' hle] at htextual
                  exact htextual

end Textual

/-! ## The scanner beside the pass -/

/-- What the scanner still has to read, and its marks: a text that is plain at its front, or what is
left of a tag. -/
inductive Beside (mode : Mode) (tag : List Char) (taken : Nat) : List Char → Marked → Prop
  | between {cs : List Char} {ms : Marked} (hmode : mode ≠ .tag) (h : Textual cs ms) :
      Beside mode tag taken cs ms
  | within (hmode : mode = .tag) :
      Beside mode tag taken (tag.drop taken) ((marked .text tag).drop taken)

namespace Beside

variable {tag : List Char} {taken : Nat}

theorem chars_eq (h : Beside mode tag taken cs ms) : chars ms = cs := by
  cases h with
  | between _ h => exact h.chars_eq
  | within => rw [chars_drop, chars_marked]

/-- What is plain text is met between tags. -/
theorem textual (h : Beside mode tag taken cs ms) (htext : s.isText mode = true) :
    Textual cs ms := by
  cases h with
  | between _ h => exact h
  | within hmode =>
      subst hmode
      cases htext

/-- Behind plain text comes more of it, or a tag. -/
theorem after_text (hstep : step mode cs = some s) (htext : s.isText mode = true)
    (h : Textual (cs.drop s.length) ms) :
    Beside s.mode (cs.drop s.length) 0 (cs.drop s.length) ms := by
  by_cases htag : s.mode = .tag
  · have hopen : atTag (cs.drop s.length) = true := by
      cases mode with
      | plain => exact atTag_of_plainStep hstep (htag ▸ nofun)
      | escaped => rw [escapedStep_mode hstep] at htag; cases htag
      | tag => cases htext
      | raw depth => exact absurd htag (rawStep_mode hstep).2
    rw [h.eq_of_atTag hopen]
    exact .within htag
  · exact .between htag h

end Beside

theorem clear_take_of_le {m n : Nat} (h : clear (ms.take n) = true) (hmn : m ≤ n) :
    clear (ms.take m) = true := by
  rw [← Nat.add_sub_cancel' hmn] at h
  exact (clear_take_drop h).1

/-- If tags end where the pass takes them to end, it puts spaces into plain text only. The tag the
scanner is in has an end, up to which nothing is put. -/
theorem textOnly_of_tagsEnd {fuel : Nat} {tag : List Char} {taken : Nat}
    (hb : Beside mode tag taken cs ms) (h : tagsEnd fuel mode tag taken cs = true) :
    textOnly fuel mode ms = true ∧ (mode = .tag → ∃ n, tagLength? tag = some n ∧ taken ≤ n) := by
  induction fuel generalizing mode tag taken cs ms with
  | zero => cases h
  | succ fuel ih =>
      rw [tagsEnd] at h
      rw [textOnly, hb.chars_eq]
      cases hstep : step mode cs with
      | none => rw [hstep] at h; cases h
      | some s =>
          rw [hstep] at h
          dsimp only at h ⊢
          by_cases hend : s.lexeme = some .ending
          · rw [if_pos hend] at h
            refine ⟨?_, fun hmode => by subst hmode; cases h⟩
            rw [h, hend]
            rfl
          rw [if_neg hend] at h
          by_cases htext : s.isText mode = true
          · rw [if_pos htext] at h
            obtain ⟨hexpressions, hrest⟩ := Bool.and_eq_true_iff.1 h
            have hnext := (hb.textual htext).drop hexpressions
            refine ⟨?_, fun hmode => by subst hmode; cases htext⟩
            rw [htext, (ih (.after_text hstep htext hnext) hrest).1, Bool.or_true]
            rfl
          rw [if_neg htext] at h
          cases hb with
          | between hmode hms =>
              rw [if_neg hmode] at h
              obtain ⟨hlength, hrest⟩ := Bool.and_eq_true_iff.1 h
              have hlength := of_decide_eq_true hlength
              obtain rfl := hms.eq_of_atTag (Option.ite_none_right_eq_some.1 hlength).1
              obtain ⟨hclear, hnext⟩ := marked_tag hlength
              have hraw : s.mode ≠ .tag := by
                cases mode with
                | raw depth => exact (rawStep_mode hstep).2
                | tag => exact absurd rfl hmode
                | plain => exact absurd rfl htext
                | escaped => exact absurd rfl htext
              refine ⟨?_, fun hmode' => absurd hmode' hmode⟩
              rw [hclear, (ih (.between hraw hnext) hrest).1, Bool.or_true, Bool.or_true]
              rfl
          | within hmode =>
              subst hmode
              rw [if_pos rfl, List.drop_drop] at h
              -- the tag ends at some place, and what this step takes lies before it
              have hnext : textOnly fuel s.mode ((marked .text tag).drop (taken + s.length)) = true ∧
                  ∃ n, tagLength? tag = some n ∧ taken + s.length ≤ n := by
                by_cases htag : s.mode = .tag
                · rw [if_pos htag] at h
                  rw [htag]
                  obtain ⟨htextOnly, hlength⟩ := ih (.within rfl) h
                  exact ⟨htextOnly, hlength rfl⟩
                · rw [if_neg htag] at h
                  obtain ⟨hlength, hrest⟩ := Bool.and_eq_true_iff.1 h
                  have hlength := of_decide_eq_true hlength
                  exact ⟨(ih (.between htag (marked_tag hlength).2) hrest).1, _, hlength, Nat.le_refl _⟩
              obtain ⟨htextOnly, n, hlength, hle⟩ := hnext
              have hclear := clear_take_of_le (marked_tag hlength).1 hle
              refine ⟨?_, fun _ => ⟨n, hlength, Nat.le_of_add_right_le hle⟩⟩
              rw [(clear_take_drop hclear).2, List.drop_drop, htextOnly, Bool.or_true, Bool.or_true]
              rfl

end Lexeme

/-! ## What the pass does to a template -/

open Lexeme

/-- The spaces that the pass puts into a template fall into its plain text only: no tag is
changed. -/
def SpacesInText (content : String) : Prop :=
  textOnly (2 * content.toList.length + 2) .plain (marked .text content.toList) = true

/-- Every tag of a template ends at the first closing braces of its kind behind its opening ones,
and so does every expression in its plain text. -/
def TagsEndFirst (content : String) : Prop :=
  tagsEnd (2 * content.toList.length + 2) .plain [] 0 content.toList = true

instance (content : String) : Decidable (SpacesInText content) := inferInstanceAs (Decidable (_ = _))

instance (content : String) : Decidable (TagsEndFirst content) := inferInstanceAs (Decidable (_ = _))

theorem spacesPut_separateBraces (content : String) :
    SpacesPut [] content (separateBraces content) := by
  refine ⟨marked .text content.toList, sound_marked .text [] _, ?_, ?_⟩
  · rw [chars_marked, String.ofList_toList]
  · rw [spread_marked, separateBraces]

theorem TagsEndFirst.spacesInText {content : String} (h : TagsEndFirst content) :
    SpacesInText content :=
  have hplain : Mode.plain ≠ .tag := nofun
  (textOnly_of_tagsEnd (.between hplain .joined) h).1

/-- The lexemes of a template stay what they are, but for its plain text. -/
theorem SpacesInText.scan_spaced {content : String} (h : SpacesInText content) :
    List.Forall₂ SpacedAt (scan content.toList) (scan (separateBraces content).toList) := by
  have hchars := chars_marked .text content.toList
  have hlength := length_le_spread (marked .text content.toList)
  rw [← length_chars, hchars] at hlength
  have hplain (h : Mode.plain = .escaped) : atTag (chars (marked .text content.toList)) = true := by
    cases h
  have hscan := scanFrom_spaced (n := 2 * (spread (marked .text content.toList)).length + 2)
    (p := .start) (q := .start) (sound_marked .text [] _) hplain h (by omega)
  rw [hchars] at hscan
  rw [separateBraces, String.toList_ofList, ← spread_marked]
  exact hscan

/-- What the pass does to a template. Whatever the template is, spaces are put between two closing
braces and a third one, and nothing else changes. They are put into plain text only, if every tag
ends at the first closing braces of its kind. And if they are, the template says what it said: it is
read as the same program, but for the spaces in plain text, or has the same mistake. -/
theorem separateBraces_says_same (content : String) :
    SpacesPut [] content (separateBraces content) ∧
    (TagsEndFirst content → SpacesInText content) ∧
    (SpacesInText content →
      ReadAlike Program.Alike (read content) (read (separateBraces content))) :=
  ⟨spacesPut_separateBraces content, fun h => h.spacesInText, fun h => read_alike h.scan_spaced⟩

/-- A comment with a brace behind it, and a tag. -/
theorem separateBraces_says_same_comment :
    TagsEndFirst "\x7b\x7b! note \x7d\x7d\x7d \x7b\x7bquote name\x7d\x7d" ∧
    ReadAlike Program.Alike (read "\x7b\x7b! note \x7d\x7d\x7d \x7b\x7bquote name\x7d\x7d")
      (read "\x7b\x7b! note \x7d\x7d \x7d \x7b\x7bquote name\x7d\x7d") := by
  have hends : TagsEndFirst "\x7b\x7b! note \x7d\x7d\x7d \x7b\x7bquote name\x7d\x7d" := by
    decide +kernel
  have hspaces := (separateBraces_says_same
    "\x7b\x7b! note \x7d\x7d\x7d \x7b\x7bquote name\x7d\x7d").2.1 hends
  have halike := (separateBraces_says_same
    "\x7b\x7b! note \x7d\x7d\x7d \x7b\x7bquote name\x7d\x7d").2.2 hspaces
  rw [show separateBraces "\x7b\x7b! note \x7d\x7d\x7d \x7b\x7bquote name\x7d\x7d" =
    "\x7b\x7b! note \x7d\x7d \x7d \x7b\x7bquote name\x7d\x7d" by decide +kernel] at halike
  exact ⟨hends, halike⟩

/-- Three closing braces in quotes: the template can be read as it is and gives them, but with its
expressions set apart it gives them with a space between. -/
theorem quoted_braces_spaced :
    ((read "\x7b\x7bquote \"\x7d\x7d\x7d\"\x7d\x7d").toOption.bind fun p =>
      (runTemplate p.settled (.obj []) ⟨[], Scope.firstNumber, []⟩).1.toOption) =
        some "\"\x7d\x7d\x7d\"" ∧
    (renderRaw "\x7b\x7bquote \"\x7d\x7d\x7d\"\x7d\x7d" (.obj [])).result.toOption =
      some "\"\x7d\x7d \x7d\"" ∧
    ¬SpacesInText "\x7b\x7bquote \"\x7d\x7d\x7d\"\x7d\x7d" := by
  decide +kernel

/-- No more can be said of what is rendered: a template can show where its tags stand, and so how
many characters were put before them. -/
example :
    let content := "\x7b\x7b! c \x7d\x7d\x7d\x7b\x7b#> p\x7d\x7d\x7b\x7bloc.start.column\x7d\x7d" ++
      "\x7b\x7b/p\x7d\x7d\x7b\x7b#*inline \"p\"\x7d\x7d\x7b\x7b@partial-block\x7d\x7d" ++
      "\x7b\x7b/inline\x7d\x7d"
    TagsEndFirst content ∧
      ((read content).toOption.bind fun p =>
        (runTemplate p.settled (.obj []) ⟨[], Scope.firstNumber, []⟩).1.toOption) = some "\x7d59" ∧
      (renderRaw content (.obj [])).result.toOption = some " \x7d60" := by
  decide +kernel

end Template

end ProxyFleet
