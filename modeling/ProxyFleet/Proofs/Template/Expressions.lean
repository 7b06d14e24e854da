import ProxyFleet.Proofs.Template.Separation

/-!
# What the pass takes for expressions

The pass that sets expressions apart goes through a template in rounds. Each looks for the next two
opening braces and then for the first closing braces of the kind that these ask for, and the next
round goes on behind them (`Rounds`). Every round gets on by four characters at least, so there are
only so many, and what they take for expressions is determined.

Spaces are put at the ends of these expressions and nowhere else (`marked_eq_of_rounds`). A pass
over what was set apart already meets a space where it would put one, so it changes nothing.
-/

namespace ProxyFleet

namespace Template

open Marked Lexeme

/-! ## First occurrences -/

/-- A text stands at a place, and at no place from an earlier one up to it. -/
structure FirstAt (p cs : List Char) (after n : Nat) : Prop where
  le : after ≤ n
  stands : p <+: cs.drop n
  first : ∀ i, after ≤ i → i < n → ¬p <+: cs.drop i

/-- A text stands at no place from one on. -/
def NeverFrom (p cs : List Char) (after : Nat) : Prop := ∀ i, after ≤ i → ¬p <+: cs.drop i

section First

variable {p cs : List Char} {n k : Nat}

theorem begins_iff_isPrefix : begins p cs = true ↔ p <+: cs := by
  constructor
  · intro h
    obtain ⟨rest, hrest⟩ := Option.isSome_iff_exists.1 h
    exact ⟨rest, (eq_append_of_afterPrefix? hrest).symm⟩
  · rintro ⟨rest, rfl⟩
    induction p with
    | nil => rfl
    | cons a p ih => rwa [begins, List.cons_append, afterPrefix?, if_pos rfl]

theorem FirstAt.unique (h : FirstAt p cs n k) {k' : Nat} (h' : FirstAt p cs n k') : k = k' := by
  rcases Nat.lt_trichotomy k k' with hlt | heq | hlt
  · exact absurd h.stands (h'.first k h.le hlt)
  · exact heq
  · exact absurd h'.stands (h.first k' h'.le hlt)

theorem FirstAt.not_never (h : FirstAt p cs n k) : ¬NeverFrom p cs n :=
  fun hnever => hnever k h.le h.stands

/-- Before the place where a search stops there is none to stop at. -/
theorem not_stop_of_upTo? {stop : List Char → Bool} (h : upTo? stop cs = some k) {i : Nat}
    (hi : i < k) : stop (cs.drop i) = false := by
  induction cs generalizing k i with
  | nil =>
      rw [upTo?] at h
      split at h
      · cases h; exact absurd hi (Nat.not_lt_zero i)
      · cases h
  | cons c cs ih =>
      rw [upTo?] at h
      split at h
      · cases h; exact absurd hi (Nat.not_lt_zero i)
      · next hstop =>
          obtain ⟨k, hk, rfl⟩ := Option.map_eq_some_iff.1 h
          cases i with
          | zero => exact Bool.not_eq_true _ ▸ hstop
          | succ i => exact ih hk (Nat.lt_of_succ_lt_succ hi)

theorem not_stop_of_upTo?_none {stop : List Char → Bool} (h : upTo? stop cs = none) (i : Nat) :
    stop (cs.drop i) = false := by
  induction cs generalizing i with
  | nil =>
      rw [upTo?] at h
      split at h
      · cases h
      · next hstop => rw [List.drop_nil]; exact Bool.not_eq_true _ ▸ hstop
  | cons c cs ih =>
      rw [upTo?] at h
      split at h
      · cases h
      · next hstop =>
          cases i with
          | zero => exact Bool.not_eq_true _ ▸ hstop
          | succ i => exact ih (Option.map_eq_none_iff.1 h) i

theorem neverFrom_of_upTo? (h : upTo? (begins p) (cs.drop n) = none) : NeverFrom p cs n := by
  intro i hi hprefix
  have hstop := not_stop_of_upTo?_none h (i - n)
  rw [List.drop_drop, Nat.add_sub_cancel' hi] at hstop
  cases hstop.symm.trans (begins_iff_isPrefix.2 hprefix)

theorem firstAt_of_upTo? (h : upTo? (begins p) (cs.drop n) = some k) : FirstAt p cs n (n + k) where
  le := Nat.le_add_right n k
  stands := begins_iff_isPrefix.1 (List.drop_drop ▸ stop_of_upTo? h)
  first i hi hlt hprefix := by
    have hstop := not_stop_of_upTo? h (Nat.sub_lt_left_of_lt_add hi hlt)
    rw [List.drop_drop, Nat.add_sub_cancel' hi] at hstop
    cases hstop.symm.trans (begins_iff_isPrefix.2 hprefix)

/-- The first place is the one that a search comes to character by character. -/
theorem FirstAt.upTo? (h : FirstAt p cs n k) : upTo? (begins p) (cs.drop n) = some (k - n) := by
  cases hsearch : Lexeme.upTo? (begins p) (cs.drop n) with
  | none => exact absurd (neverFrom_of_upTo? hsearch) h.not_never
  | some m => rw [h.unique (firstAt_of_upTo? hsearch), Nat.add_sub_cancel_left]

theorem NeverFrom.upTo? (h : NeverFrom p cs n) : upTo? (begins p) (cs.drop n) = none := by
  cases hsearch : Lexeme.upTo? (begins p) (cs.drop n) with
  | none => rfl
  | some m => exact absurd h (firstAt_of_upTo? hsearch).not_never

/-- What stands at a place ends within the text. -/
theorem FirstAt.add_length_le (h : FirstAt p cs n k) (hp : p ≠ []) : k + p.length ≤ cs.length := by
  have hlength := h.stands.length_le
  have hpos := List.length_pos_iff.2 hp
  rw [List.length_drop] at hlength
  omega

end First

/-! ## Rounds -/

/-- What the pass takes for an expression: where it starts and stops, and what braces it is
between. -/
@[ext]
structure Expression where
  start : Nat
  stop : Nat
  kind : BracePlace
  deriving DecidableEq, Repr

/-- The braces that an expression begins with, whatever its kind. -/
def opening : List Char := ['{', '{']

/-- What kind of expression is opened at a place. -/
def kindAt (cs : List Char) (n : Nat) : BracePlace := openedBy (cs.drop (n + 2))

/-- The expressions that the pass takes from a place on, round by round. One starts at the next
opening braces, and stops behind the first closing braces of the kind that these ask for. There are
no more if nothing is opened any more, or if what is opened next is never closed. -/
inductive Rounds (cs : List Char) : Nat → List Expression → Prop
  | plain {n : Nat} (hnone : NeverFrom opening cs n) : Rounds cs n []
  | unclosed {n k : Nat} (hopen : FirstAt opening cs n k)
      (hnone : NeverFrom (kindAt cs k).closing cs (k + 2)) : Rounds cs n []
  | taken {n j : Nat} {e : Expression} {es : List Expression} (hopen : FirstAt opening cs n e.start)
      (hkind : e.kind = kindAt cs e.start) (hclose : FirstAt e.kind.closing cs (e.start + 2) j)
      (hstop : e.stop = j + e.kind.closing.length) (hrest : Rounds cs e.stop es) :
      Rounds cs n (e :: es)

/-- What closes an expression ends with two braces. -/
theorem closing_eq (cs : List Char) (n : Nat) :
    ∃ before, (kindAt cs n).closing = before ++ ['}', '}'] := by
  have hne := openedBy_ne_text (cs.drop (n + 2))
  rw [kindAt]
  cases hkind : openedBy (cs.drop (n + 2)) with
  | text => exact absurd hkind hne
  | two => exact ⟨[], rfl⟩
  | three => exact ⟨['}'], rfl⟩
  | comment => exact ⟨['-', '-'], rfl⟩

theorem two_le_closing (cs : List Char) (n : Nat) : 2 ≤ (kindAt cs n).closing.length := by
  obtain ⟨before, h⟩ := closing_eq cs n
  simp [h]

/-- An expression has four characters at least, and ends within the text. -/
theorem FirstAt.closes {cs : List Char} {k j : Nat}
    (h : FirstAt (kindAt cs k).closing cs (k + 2) j) :
    k + 4 ≤ j + (kindAt cs k).closing.length ∧ j + (kindAt cs k).closing.length ≤ cs.length := by
  have htwo := two_le_closing cs k
  have hle := h.le
  exact ⟨by omega, h.add_length_le (List.length_pos_iff.1 (by omega))⟩

namespace Rounds

variable {cs : List Char} {n : Nat} {es : List Expression}

/-- There is a next round, or there is none any more. -/
theorem exists_rounds (cs : List Char) (n : Nat) : ∃ es, Rounds cs n es := by
  induction hm : cs.length - n using Nat.strongRecOn generalizing n with
  | ind m ih =>
      cases hopen : upTo? (begins opening) (cs.drop n) with
      | none => exact ⟨[], .plain (neverFrom_of_upTo? hopen)⟩
      | some k =>
          have hopen := firstAt_of_upTo? hopen
          cases hclose : upTo? (begins (kindAt cs (n + k)).closing) (cs.drop (n + k + 2)) with
          | none => exact ⟨[], .unclosed hopen (neverFrom_of_upTo? hclose)⟩
          | some j =>
              have hclose := firstAt_of_upTo? hclose
              have hcloses := hclose.closes
              obtain ⟨es, hes⟩ := ih _ (by omega)
                (n + k + 2 + j + (kindAt cs (n + k)).closing.length) rfl
              exact ⟨⟨n + k, _, kindAt cs (n + k)⟩ :: es, .taken hopen rfl hclose rfl hes⟩

/-- The expressions do not depend on how the rounds are gone through. -/
theorem unique (h : Rounds cs n es) {fs : List Expression} (h' : Rounds cs n fs) : es = fs := by
  induction h generalizing fs with
  | plain hnone =>
      cases h' with
      | plain | unclosed => rfl
      | taken hopen => exact absurd hnone hopen.not_never
  | unclosed hopen hnone =>
      cases h' with
      | plain | unclosed => rfl
      | taken hopen' hkind hclose =>
          rw [hopen.unique hopen'] at hnone
          exact absurd hnone (hkind ▸ hclose.not_never)
  | @taken n j e es hopen hkind hclose hstop _ ih =>
      cases h' with
      | plain hnone => exact absurd hnone hopen.not_never
      | unclosed hopen' hnone =>
          rw [← hopen.unique hopen'] at hnone
          exact absurd hnone (hkind ▸ hclose.not_never)
      | @taken _ j' f fs hopen' hkind' hclose' hstop' hrest' =>
          have hstart := hopen.unique hopen'
          have hkinds : e.kind = f.kind := by rw [hkind, hkind', hstart]
          rw [← hstart, ← hkinds] at hclose'
          have hstops : e.stop = f.stop := by rw [hstop, hstop', ← hkinds, hclose.unique hclose']
          rw [Expression.ext hstart hstops hkinds, ih (hstops ▸ hrest')]

/-- A round gets on by four characters at least and stays within the text. -/
theorem length_le (h : Rounds cs n es) (hn : n ≤ cs.length) : n + 4 * es.length ≤ cs.length := by
  induction h with
  | plain | unclosed => simpa using hn
  | taken hopen hkind hclose hstop _ ih =>
      rw [hkind] at hclose hstop
      have hcloses := hclose.closes
      have hrest := ih (hstop ▸ hcloses.2)
      have hopenLe := hopen.le
      rw [List.length_cons]
      omega

end Rounds

/-! ## Where spaces are put -/

/-- The ends of expressions that a closing brace follows, but not of those between three braces. -/
def gaps (cs : List Char) (es : List Expression) : List Nat :=
  ((es.filter (·.kind ≠ .three)).map (·.stop)).filter fun n => cs[n]? = some '}'

/-- A text that stands at a place, its characters marked with whether they stand at one of some
places. -/
def marksFrom (n : Nat) (places : List Nat) (cs : List Char) : Marked :=
  (cs.zipIdx n).map fun x => (x.1, decide (x.2 ∈ places))

/-- A text with a single space before each of the characters at some places. -/
def spacedAt (places : List Nat) (cs : List Char) : List Char := spread (marksFrom 0 places cs)

section Marks

variable {cs ds : List Char} {n : Nat} {places : List Nat}

theorem marksFrom_cons (c : Char) : marksFrom n places (c :: cs) =
    (c, decide (n ∈ places)) :: marksFrom (n + 1) places cs := rfl

theorem marksFrom_append : marksFrom n places (cs ++ ds) =
    marksFrom n places cs ++ marksFrom (n + cs.length) places ds := by
  rw [marksFrom, List.zipIdx_append, List.map_append]
  rfl

/-- Marks depend on the places among the text alone. -/
theorem marksFrom_congr {others : List Nat}
    (h : ∀ i, n ≤ i → i < n + cs.length → (i ∈ places ↔ i ∈ others)) :
    marksFrom n places cs = marksFrom n others cs := by
  refine List.map_congr_left fun x hx => ?_
  have hplace := List.mem_zipIdx hx
  rw [decide_eq_decide.2 (h x.2 hplace.1 (by omega))]

theorem marksFrom_nil : marksFrom n [] cs = unmarked cs := by
  induction cs generalizing n with
  | nil => rfl
  | cons c cs ih => rw [marksFrom_cons, ih]; rfl

theorem eq_unmarked_of_clear {ms : Marked} (h : clear ms = true) : ms = unmarked (chars ms) := by
  induction ms with
  | nil => rfl
  | cons m ms ih =>
      obtain ⟨c, _ | _⟩ := m
      · exact congrArg _ (ih h)
      · cases h

/-- No space is put before the first opening braces. -/
theorem clear_marked_text (h : ∀ k, upTo? atTag cs = some k → n ≤ k) :
    clear ((marked .text cs).take n) = true := by
  induction cs generalizing n with
  | nil => rw [marked, List.take_nil]; rfl
  | cons c cs ih =>
      cases n with
      | zero => rfl
      | succ n =>
          rw [upTo?] at h
          cases htag : atTag (c :: cs) with
          | true =>
              rw [if_pos htag] at h
              exact absurd (h 0 rfl) (Nat.not_succ_le_zero n)
          | false =>
              rw [htag, if_neg Bool.false_ne_true] at h
              rw [marked_of_not_atTag htag]
              exact ih fun k hk => Nat.le_of_succ_le_succ (h (k + 1) (by rw [hk]; rfl))

/-- No space is put behind braces that are never closed. -/
theorem clear_marked_unclosed {place : BracePlace} (hplace : place ≠ .text)
    (h : upTo? (begins place.closing) cs = none) : clear (marked place cs) = true := by
  induction cs with
  | nil => rw [marked]; rfl
  | cons c cs ih =>
      rw [upTo?] at h
      split at h
      · cases h
      · next hclosing =>
          rw [marked_of_not_closing hplace (Bool.not_eq_true _ ▸ hclosing)]
          exact ih (Option.map_eq_none_iff.1 h)

/-- The text before the next opening braces has no marks. -/
theorem marked_upTo_opening {k : Nat} (h : FirstAt opening cs n k) :
    marked .text (cs.drop n) =
      unmarked ((cs.drop n).take (k - n)) ++ marked .text (cs.drop k) := by
  have hsearch : ∀ m, upTo? atTag (cs.drop n) = some m → k - n ≤ m := by
    intro m hm
    exact Nat.le_of_eq (Option.some.inj (h.upTo?.symm.trans hm))
  have htake := eq_unmarked_of_clear (clear_marked_text hsearch)
  have hdrop := marked_text_drop hsearch
  rw [chars_take, chars_marked] at htake
  rw [List.drop_drop, Nat.add_sub_cancel' h.le] at hdrop
  rw [← htake, ← hdrop, List.take_append_drop]

/-- An expression has no marks. -/
theorem marked_expressionAt {e : Expression} {j : Nat} (hopen : opening <+: cs.drop e.start)
    (hkind : e.kind = kindAt cs e.start) (hclose : FirstAt e.kind.closing cs (e.start + 2) j)
    (hstop : e.stop = j + e.kind.closing.length) :
    marked .text (cs.drop e.start) =
      unmarked ((cs.drop e.start).take (e.stop - e.start)) ++
        behind e.kind (cs.drop e.stop) := by
  have hle := hclose.le
  have hlength : expressionLength? (cs.drop e.start) = some (e.stop - e.start) := by
    rw [expressionLength?, List.drop_drop, ← kindAt, ← hkind, hclose.upTo?, Option.map_some]
    congr 1
    omega
  obtain ⟨hclear, hbehind⟩ := marked_atTag (begins_iff_isPrefix.2 hopen) hlength
  have htake := eq_unmarked_of_clear hclear
  rw [chars_take, chars_marked] at htake
  rw [List.drop_drop, List.drop_drop, ← kindAt, ← hkind, Nat.add_sub_cancel' (by omega)] at hbehind
  rw [← htake, ← hbehind, List.take_append_drop]

theorem unmarked_append (cs ds : List Char) : unmarked (cs ++ ds) = unmarked cs ++ unmarked ds :=
  List.map_append

theorem mem_gaps {es : List Expression} : n ∈ gaps cs es ↔
    ∃ e ∈ es, e.kind ≠ .three ∧ e.stop = n ∧ cs[n]? = some '}' := by
  simp only [gaps, List.mem_filter, List.mem_map, decide_eq_true_eq]
  constructor
  · rintro ⟨⟨e, ⟨he, hkind⟩, hstop⟩, hbrace⟩
    exact ⟨e, he, hkind, hstop, hbrace⟩
  · rintro ⟨e, he, hkind, hstop, hbrace⟩
    exact ⟨⟨e, ⟨he, hkind⟩, hstop⟩, hbrace⟩

end Marks

namespace Rounds

variable {cs : List Char} {n j : Nat} {e : Expression} {es : List Expression}

/-- The end of an expression is a place of the text. -/
theorem stop_le (hkind : e.kind = kindAt cs e.start)
    (hclose : FirstAt e.kind.closing cs (e.start + 2) j)
    (hstop : e.stop = j + e.kind.closing.length) : e.start + 4 ≤ e.stop ∧ e.stop ≤ cs.length := by
  rw [hkind] at hclose hstop
  exact hstop ▸ hclose.closes

theorem lt_stop (h : Rounds cs n es) : ∀ f ∈ es, n < f.stop := by
  induction h with
  | plain | unclosed => nofun
  | taken hopen hkind hclose hstop _ ih =>
      have hle := stop_le hkind hclose hstop
      have hopenLe := hopen.le
      rintro f (_ | ⟨_, hf⟩)
      · omega
      · have hlt := ih f hf
        omega

/-- What one round leaves without marks, and what comes behind. -/
theorem marked_round (hopen : FirstAt opening cs n e.start) (hkind : e.kind = kindAt cs e.start)
    (hclose : FirstAt e.kind.closing cs (e.start + 2) j)
    (hstop : e.stop = j + e.kind.closing.length) :
    marked .text (cs.drop n) =
      unmarked ((cs.drop n).take (e.stop - n)) ++ behind e.kind (cs.drop e.stop) := by
  have hle := (stop_le hkind hclose hstop).1
  have hsplit : e.stop - n = (e.start - n) + (e.stop - e.start) := by
    have hopenLe := hopen.le
    omega
  rw [marked_upTo_opening hopen, marked_expressionAt hopen.stands hkind hclose hstop, hsplit,
    List.take_add, unmarked_append, List.drop_drop, Nat.add_sub_cancel' hopen.le,
    List.append_assoc]

/-- Behind an expression its own end and those of the expressions to come are marked. -/
theorem behind_eq
    (hrest : marked .text (cs.drop e.stop) = marksFrom e.stop (gaps cs es) (cs.drop e.stop)) :
    behind e.kind (cs.drop e.stop) = marksFrom e.stop (gaps cs (e :: es)) (cs.drop e.stop) := by
  have hhead : (cs.drop e.stop).head? = cs[e.stop]? := List.head?_drop
  by_cases hthree : e.kind = .three
  · rw [behind, if_pos hthree, hrest, gaps, gaps, List.filter_cons_of_neg (by simpa using hthree)]
  have hmap : (e :: es).filter (·.kind ≠ .three) = e :: es.filter (·.kind ≠ .three) :=
    List.filter_cons_of_pos (by simpa using hthree)
  rw [behind, if_neg hthree, gaps, hmap, List.map_cons]
  by_cases hbrace : cs[e.stop]? = some '}'
  · obtain ⟨ds, hds⟩ := List.head?_eq_some_iff.1 (hhead.trans hbrace)
    rw [List.filter_cons_of_pos (by simpa using hbrace), ← gaps, hrest, hds, marksFrom_cons,
      marksFrom_cons, gapFirst]
    have hothers : marksFrom (e.stop + 1) (e.stop :: gaps cs es) ds =
        marksFrom (e.stop + 1) (gaps cs es) ds :=
      marksFrom_congr fun i hi _ => by simp [show i ≠ e.stop by omega]
    rw [hothers, decide_eq_true List.mem_cons_self]
  · rw [List.filter_cons_of_neg (by simpa using hbrace), ← gaps, ← hrest]
    exact gapFirst_marked (hhead ▸ hbrace)

/-- The pass marks the ends of the expressions it takes, as far as a closing brace follows them. -/
theorem marked_eq (h : Rounds cs n es) :
    marked .text (cs.drop n) = marksFrom n (gaps cs es) (cs.drop n) := by
  induction h with
  | @plain n hnone =>
      have hclear := clear_marked_text (n := (cs.drop n).length) fun k hk => by
        cases hnone.upTo?.symm.trans hk
      have hall := eq_unmarked_of_clear hclear
      rw [chars_take, chars_marked, List.take_length, List.take_of_length_le] at hall
      · exact hall.trans marksFrom_nil.symm
      · exact Nat.le_of_eq (by rw [← length_chars, chars_marked])
  | @unclosed n k hopen hnone =>
      obtain ⟨rest, hrest⟩ := hopen.stands
      have hdrop : cs.drop (k + 2) = rest := by
        rw [← List.drop_drop, ← hrest]
        rfl
      have hinner := eq_unmarked_of_clear
        (clear_marked_unclosed (openedBy_ne_text rest) (by simpa [kindAt, hdrop] using hnone.upTo?))
      rw [chars_marked] at hinner
      rw [marked_upTo_opening hopen, ← hrest, show opening ++ rest = '{' :: '{' :: rest from rfl,
        marked, hinner]
      exact (unmarked_append _ ('{' :: '{' :: rest)).symm.trans (by
        rw [show '{' :: '{' :: rest = opening ++ rest from rfl, hrest,
          show cs.drop k = (cs.drop n).drop (k - n) by
            rw [List.drop_drop, Nat.add_sub_cancel' hopen.le], List.take_append_drop]
        exact marksFrom_nil.symm)
  | @taken n j e es hopen hkind hclose hstop hrest ih =>
      have hle := stop_le hkind hclose hstop
      have hopenLe := hopen.le
      have hlength : ((cs.drop n).take (e.stop - n)).length = e.stop - n := by
        rw [List.length_take, List.length_drop]
        omega
      have hbefore : marksFrom n (gaps cs (e :: es)) ((cs.drop n).take (e.stop - n)) =
          unmarked ((cs.drop n).take (e.stop - n)) := by
        rw [← marksFrom_nil (n := n)]
        refine marksFrom_congr fun i _ hi => iff_of_false (fun hmem => ?_) List.not_mem_nil
        obtain ⟨f, hf, -, rfl, -⟩ := mem_gaps.1 hmem
        rcases List.mem_cons.1 hf with rfl | hf
        · omega
        · have hlt := hrest.lt_stop f hf
          omega
      have hsplit : cs.drop n = (cs.drop n).take (e.stop - n) ++ cs.drop e.stop := by
        have hdrop : cs.drop e.stop = (cs.drop n).drop (e.stop - n) := by
          rw [List.drop_drop, Nat.add_sub_cancel' (by omega)]
        rw [hdrop, List.take_append_drop]
      rw [marked_round hopen hkind hclose hstop, behind_eq ih, ← hbefore]
      conv_rhs => rw [hsplit, marksFrom_append, hlength, Nat.add_sub_cancel' (by omega)]

/-- A space is put behind two closing braces, and before a third one. -/
theorem braces_of_mem_gaps (h : Rounds cs n es) {m : Nat} (hm : m ∈ gaps cs es) :
    ∃ k, m = k + 2 ∧ ['}', '}', '}'] <+: cs.drop k := by
  induction h with
  | plain | unclosed => cases hm
  | @taken n j e es hopen hkind hclose hstop hrest ih =>
      obtain ⟨f, hf, hthree, rfl, hbrace⟩ := mem_gaps.1 hm
      rcases List.mem_cons.1 hf with rfl | hf
      · obtain ⟨before, hclosing⟩ := closing_eq cs f.start
        rw [← hkind] at hclosing
        obtain ⟨rest, hstands⟩ := hclose.stands
        rw [hclosing, List.length_append] at hstop
        have hplace : f.stop = j + before.length + 2 := hstop
        have hdrop : cs.drop (j + before.length) = ['}', '}'] ++ rest := by
          rw [← List.drop_drop, ← hstands, hclosing, List.append_assoc, List.drop_left]
        have hrestHead : rest.head? = some '}' := by
          rw [← hbrace, hplace, ← List.head?_drop, ← List.drop_drop, hdrop]
          rfl
        obtain ⟨ds, rfl⟩ := List.head?_eq_some_iff.1 hrestHead
        exact ⟨j + before.length, hplace, ds, hdrop.symm⟩
      · exact ih (mem_gaps.2 ⟨f, hf, hthree, rfl, hbrace⟩)

end Rounds

/-! ## A second pass -/

/-- What a pass in some place looks for. -/
def BracePlace.awaited : BracePlace → List Char
  | .text => opening
  | place => place.closing

/-- A character at which nothing begins that the pass looks for stays as it is. -/
theorem separate_of_not_awaited {place : BracePlace} {c : Char} {cs : List Char}
    (h : begins place.awaited (c :: cs) = false) :
    separate place (c :: cs) = c :: separate place cs := by
  rw [separate]
  all_goals
    rintro ds rfl rfl rfl
    cases h

theorem chars_separate (place : BracePlace) (cs : List Char) :
    ∃ ms, Sound [] ms ∧ chars ms = cs ∧ spread ms = separate place cs :=
  ⟨marked place cs, sound_marked place [] cs, chars_marked place cs, spread_marked place cs⟩

/-- What begins a text with spaces put into it, and has none, begins the text. -/
theorem begins_of_separate {place : BracePlace} {p cs : List Char} (hp : ' ' ∉ p)
    (h : begins p (separate place cs) = true) : begins p cs = true := by
  obtain ⟨ms, -, rfl, hspread⟩ := chars_separate place cs
  rw [← hspread, begins_spread hp, Bool.and_eq_true] at h
  exact h.1

/-- What the pass looks for in a place has no space in it. -/
theorem space_notMem_awaited (place : BracePlace) : ' ' ∉ place.awaited := by
  cases place <;> decide

theorem openedBy_eq (cs : List Char) : openedBy cs =
    if begins ['{'] cs then .three else if begins ['!', '-', '-'] cs then .comment else .two := by
  unfold openedBy
  split
  · rfl
  · rfl
  · next hthree hcomment =>
      rw [if_neg, if_neg]
      · intro h
        obtain ⟨rest, rfl⟩ := begins_iff_isPrefix.1 h
        exact hcomment rest rfl
      · intro h
        obtain ⟨rest, rfl⟩ := begins_iff_isPrefix.1 h
        exact hthree rest rfl

/-- Spaces that are put into a text do not change what kind of expression it goes on. -/
theorem openedBy_separate (place : BracePlace) (cs : List Char) :
    openedBy (separate place cs) = openedBy cs := by
  obtain ⟨ms, hs, rfl, hspread⟩ := chars_separate place cs
  rw [← hspread, openedBy_eq, openedBy_eq, begins_spread_eq hs (by decide) (by decide),
    begins_spread_eq hs (by decide) (by decide)]

/-- Behind an expression a second pass finds what the first one left there. -/
theorem gapBefore_separate {cs : List Char}
    (h : separate .text (separate .text cs) = separate .text cs) :
    gapBefore (gapBefore cs ++ separate .text cs) ++
        separate .text (gapBefore cs ++ separate .text cs) =
      gapBefore cs ++ separate .text cs := by
  by_cases hbrace : cs.head? = some '}'
  · have hgap : gapBefore cs = [' '] := if_pos hbrace
    rw [hgap]
    change separate .text (' ' :: separate .text cs) = ' ' :: separate .text cs
    rw [separate_of_not_awaited rfl, h]
  · have hhead : (separate .text cs).head? ≠ some '}' := by
      cases cs with
      | nil => simp [separate]
      | cons c cs =>
          obtain ⟨ms, hms⟩ := marked_cons .text c cs
          rw [← spread_marked, hms]
          exact hbrace
    have hgap : gapBefore cs = [] := if_neg hbrace
    have hnone : gapBefore (separate .text cs) = [] := if_neg hhead
    rw [hgap, List.nil_append, hnone, h, List.nil_append]

/-- A second pass changes nothing. -/
theorem separate_separate (place : BracePlace) (cs : List Char) :
    separate place (separate place cs) = separate place cs := by
  induction place, cs using separate.induct with
  | case1 => rw [separate, separate]
  | case2 cs ih => rw [separate, separate, openedBy_separate, ih]
  | case3 cs ih => rw [separate, separate, gapBefore_separate ih]
  | case4 cs ih => rw [separate, separate, ih]
  | case5 cs ih => rw [separate, separate, gapBefore_separate ih]
  | case6 place c cs hopen htwo hthree hcomment ih =>
      have hcopied : separate place (c :: cs) = c :: separate place cs := by
        rw [separate] <;> assumption
      have hnot : begins place.awaited (c :: cs) = false := by
        rw [Bool.eq_false_iff]
        intro h
        obtain ⟨rest, hrest⟩ := begins_iff_isPrefix.1 h
        cases place with
        | text => cases hrest; exact hopen rest rfl rfl rfl
        | two => cases hrest; exact htwo rest rfl rfl rfl
        | three => cases hrest; exact hthree rest rfl rfl rfl
        | comment => cases hrest; exact hcomment rest rfl rfl rfl
      have hagain : begins place.awaited (c :: separate place cs) = false := by
        rw [Bool.eq_false_iff] at hnot ⊢
        rw [← hcopied]
        exact fun h => hnot (begins_of_separate (space_notMem_awaited place) h)
      rw [hcopied, separate_of_not_awaited hagain, ih]

/-- The pass over a template ends after finitely many rounds, each of at least four characters, and
what they take for expressions is determined. It writes the template with a single space at the end
of each of these that is not between three braces and has a closing brace behind it, and with
nothing else changed. These ends are behind two closing braces and before a third one. A second pass
changes nothing. -/
theorem separateBraces_expressions (content : String) :
    ∃ es, Rounds content.toList 0 es ∧ (∀ fs, Rounds content.toList 0 fs → fs = es) ∧
      4 * es.length ≤ content.toList.length ∧
      separateBraces content = String.ofList (spacedAt (gaps content.toList es) content.toList) ∧
      (∀ n ∈ gaps content.toList es, ∃ k, n = k + 2 ∧
        ['}', '}', '}'] <+: content.toList.drop k) ∧
      separateBraces (separateBraces content) = separateBraces content := by
  obtain ⟨es, hes⟩ := Rounds.exists_rounds content.toList 0
  have hlength := hes.length_le (Nat.zero_le _)
  have hmarks : marked .text content.toList =
      marksFrom 0 (gaps content.toList es) content.toList := hes.marked_eq
  refine ⟨es, hes, fun fs hfs => hfs.unique hes, by omega, ?_,
    fun n hn => hes.braces_of_mem_gaps hn, ?_⟩
  · rw [separateBraces, ← spread_marked, hmarks]
    rfl
  · rw [separateBraces, separateBraces, String.toList_ofList, separate_separate]

/-- The comment ends at its hyphens and not at the braces in it. -/
example : separateBraces "\x7b\x7b!-- \x7d\x7d\x7d --\x7d\x7d\x7d" =
    "\x7b\x7b!-- \x7d\x7d\x7d --\x7d\x7d \x7d" := by decide

end Template

end ProxyFleet
