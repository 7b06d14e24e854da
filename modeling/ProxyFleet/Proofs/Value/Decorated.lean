import ProxyFleet.Proofs.Value.Pieces

/-!
# Decorated texts

A data text is decorated by putting comments and white space between its tokens, and a
comma behind the last item of an array or a record (`Comments.Decorated`). The passes
take this back: the first leaves white space and commas, the second white space alone,
and the scan does not mind that. So there are three inductions along the tokens of the
text, one for each of them.

Why the second pass takes out no comma of the text itself is not to be seen from its
tokens one by one. It is the reader that accepts no comma before a closing bracket, and
this is the only use that is made of the text being well formed.
-/

namespace ProxyFleet

namespace Comments

open Token

/-- A text that begins, but for gaps, with a closing bracket. -/
inductive Closes : List Char → Prop
  | bracket {b : Char} {t : List Char} : b = ']' ∨ b = '}' → Closes (b :: t)
  | gap {c : Char} {t : List Char} : isGap c = true → Closes t → Closes (c :: t)

/-- A text, and what it can be decorated to. Between the tokens of the text there can be more white
space; where comments are allowed, line comments before the end of a line or of the text, and block
comments; and where commas are allowed, one between an item and a closing bracket. `item` tells
whether an item ends right before the text. -/
inductive Decorated (comments commas : Bool) : Bool → List Char → List Char → Prop
  | done {item : Bool} : Decorated comments commas item [] []
  | gap {item : Bool} {c : Char} {t d : List Char} : isGap c = true →
      Decorated comments commas item t d → Decorated comments commas item (c :: t) (c :: d)
  | mark {item : Bool} {c : Char} {m : Token} {t d : List Char} : ofMark? c = some m →
      Decorated comments commas (c = ']' || c = '}') t d →
        Decorated comments commas item (c :: t) (c :: d)
  | quoted {item : Bool} (cs : List Char) {t d : List Char} : Quotable cs →
      Decorated comments commas true t d →
        Decorated comments commas item ('"' :: (cs ++ ['"']) ++ t) ('"' :: (cs ++ ['"']) ++ d)
  | scalar {item : Bool} (cs : List Char) {t d : List Char} : cs ≠ [] →
      (∀ c ∈ cs, isScalarPart c = true) → Delimited t → Decorated comments commas true t d →
        Decorated comments commas item (cs ++ t) (cs ++ d)
  | space {item : Bool} {c : Char} {t d : List Char} : isGap c = true →
      Decorated comments commas item t d → Decorated comments commas item t (c :: d)
  | comma {t d : List Char} : commas = true → Closes t → Decorated comments commas false t d →
      Decorated comments commas true t (',' :: d)
  | line {item : Bool} (cs : List Char) {t d : List Char} : comments = true → '\n' ∉ cs →
      (∀ c ∈ d.head?, c = '\n') → Decorated comments commas item t d →
        Decorated comments commas item t ('/' :: '/' :: (cs ++ d))
  | block {item : Bool} (cs : List Char) {t d : List Char} : comments = true → ¬['*', '/'] <:+: cs →
      Decorated comments commas item t d →
        Decorated comments commas item t ('/' :: '*' :: (cs ++ '*' :: '/' :: d))

variable {comments commas item : Bool} {c : Char} {cs t d : List Char} {done : List Token}

/-! ## Characters -/

theorem gap_ne {x : Char} (h : isGap c = true) (hx : isGap x = false) : c ≠ x := by
  rintro rfl
  rw [hx] at h
  cases h

theorem mark_ne {m : Token} {x : Char} (h : ofMark? c = some m) (hx : ofMark? x = none) :
    c ≠ x := by
  rintro rfl
  rw [hx] at h
  cases h

theorem scalar_ne {x : Char} (h : isScalarPart c = true) (hx : isScalarPart x = false) :
    c ≠ x := by
  rintro rfl
  rw [hx] at h
  cases h

theorem isBlank_gap (h : isGap c = true) : isBlank c = true := by
  rcases gap_cases h with rfl | rfl | rfl | rfl <;> rfl

theorem isBlank_mark {m : Token} (h : ofMark? c = some m) : isBlank c = false := by
  rcases ofMark?_cases h with
    ⟨rfl, -⟩ | ⟨rfl, -⟩ | ⟨rfl, -⟩ | ⟨rfl, -⟩ | ⟨rfl, -⟩ | ⟨rfl, -⟩ <;> rfl

theorem isBlank_scalar (h : isScalarPart c = true) : isBlank c = false := by
  rw [Bool.eq_false_iff]
  intro hblank
  have hranges := blank_ranges hblank
  simp only [isScalarPart, continuesNumber, Char.isDigit, Bool.or_eq_true, Bool.and_eq_true,
    decide_eq_true_eq, ge_iff_le, UInt32.le_iff_toNat_le] at h
  have hval : c.val.toNat = c.toNat := rfl
  rcases h with (((((h | rfl) | rfl) | rfl) | rfl) | rfl) | hlower
  · have h1 : 48 ≤ c.val.toNat := h.1
    have h2 : c.val.toNat ≤ 57 := h.2
    omega
  · exact absurd hranges (by decide)
  · exact absurd hranges (by decide)
  · exact absurd hranges (by decide)
  · exact absurd hranges (by decide)
  · exact absurd hranges (by decide)
  · obtain ⟨hlow, hhigh⟩ := Bool.and_eq_true_iff.1 hlower
    have h1 : 97 ≤ c.val.toNat := UInt32.le_iff_toNat_le.1 (of_decide_eq_true hlow)
    have h2 : c.val.toNat ≤ 122 := UInt32.le_iff_toNat_le.1 (of_decide_eq_true hhigh)
    omega

theorem Inert.strip_eq (h : Inert false cs) (rest : List Char) :
    strip .plain (cs ++ rest) = cs ++ strip .plain rest := (h rest).1

theorem Inert.stripCommas_eq (h : Inert false cs) (rest : List Char) :
    stripCommas false (cs ++ rest) = cs ++ stripCommas false rest := (h rest).2

theorem scalar_inert (h : ∀ c ∈ cs, isScalarPart c = true) : Inert false cs :=
  .of_plain fun c hc => ⟨scalar_ne (h c hc) rfl, scalar_ne (h c hc) rfl, scalar_ne (h c hc) rfl⟩

theorem quotable_inert (h : Quotable cs) : Inert true cs := by
  induction h with
  | nil => exact .nil
  | char hquote hbackslash _ ih => exact (Inert.within hquote hbackslash).append ih
  | @escape c cs _ ih => exact (Inert.escaped c).append ih

/-! ## The first pass -/

theorem strip_char (hslash : c ≠ '/') (hquote : c ≠ '"') (cs : List Char) :
    strip .plain (c :: cs) = c :: strip .plain cs := by
  rw [strip_plain hslash, if_neg hquote]

theorem strip_line (hcs : '\n' ∉ cs) (hd : ∀ c ∈ d.head?, c = '\n') :
    strip .lineComment (cs ++ d) = strip .plain d := by
  induction cs with
  | nil =>
      cases d with
      | nil => rw [List.append_nil, strip, strip]
      | cons c d =>
          obtain rfl : c = '\n' := hd c rfl
          rw [strip_char (by decide) (by decide), List.nil_append, strip, if_pos rfl]
  | cons c cs ih =>
      obtain ⟨hc, hcs⟩ := List.ne_and_not_mem_of_not_mem_cons hcs
      rw [List.cons_append, strip, if_neg (Ne.symm hc), ih hcs]

theorem strip_block (hcs : ¬['*', '/'] <:+: cs) :
    strip .blockComment (cs ++ '*' :: '/' :: d) = strip .plain d := by
  induction cs with
  | nil => rw [List.nil_append, strip]
  | cons c cs ih =>
      rw [List.cons_append, strip, ih fun h => hcs (List.infix_cons h)]
      -- the comment does not end here already
      rintro rest rfl hrest
      cases cs with
      | nil => cases hrest
      | cons c' cs =>
          cases hrest
          exact hcs ⟨[], cs, rfl⟩

/-- The first pass takes out the comments. -/
theorem Decorated.strip (h : Decorated comments commas item t d) :
    Decorated false commas item t (Comments.strip .plain d) := by
  induction h with
  | done =>
      rw [Comments.strip]
      exact .done
  | gap hc _ ih =>
      rw [strip_char (gap_ne hc rfl) (gap_ne hc rfl)]
      exact .gap hc ih
  | mark hc _ ih =>
      rw [strip_char (mark_ne hc rfl) (mark_ne hc rfl)]
      exact .mark hc ih
  | quoted cs hcs _ ih =>
      rw [(quotable_inert hcs).enquoted.strip_eq]
      exact .quoted cs hcs ih
  | scalar cs hne hcs ht _ ih =>
      rw [(scalar_inert hcs).strip_eq]
      exact .scalar cs hne hcs ht ih
  | space hc _ ih =>
      rw [strip_char (gap_ne hc rfl) (gap_ne hc rfl)]
      exact .space hc ih
  | comma hcommas ht _ ih =>
      rw [strip_char (by decide) (by decide)]
      exact .comma hcommas ht ih
  | line cs _ hcs hd _ ih => rwa [Comments.strip, strip_line hcs hd]
  | block cs _ hcs _ ih => rwa [Comments.strip, strip_block hcs]

/-! ## The second pass -/

theorem closesNext_blank (h : isBlank c = true) (cs : List Char) :
    closesNext (c :: cs) = closesNext cs := by
  rw [closesNext, closesNext, List.dropWhile_cons_of_pos h]

theorem closesNext_char (h : isBlank c = false) (cs : List Char) :
    closesNext (c :: cs) = (c = ']' || c = '}') := by
  rw [closesNext, List.dropWhile_cons_of_neg (by simp [h])]

/-- What begins with neither a gap nor a bracket does not close. -/
theorem opens_iff (hblank : isBlank c = false) (hbracket : ¬(c = ']' ∨ c = '}')) :
    closesNext (c :: d) = true ↔ Closes (c :: t) := by
  rw [closesNext_char hblank]
  refine iff_of_false (by simpa using hbracket) fun hcloses => ?_
  cases hcloses with
  | bracket hb => exact hbracket hb
  | gap hc => exact absurd (hblank.symm.trans (isBlank_gap hc)) Bool.false_ne_true

/-- Unless a comma was put there, a text goes on with a closing bracket just if it did so before it
was decorated. -/
theorem Decorated.closesNext_iff (h : Decorated false commas item t d) (hitem : item = false) :
    closesNext d = true ↔ Closes t := by
  induction h with
  | done => exact iff_of_false Bool.false_ne_true nofun
  | gap hc _ ih =>
      rw [closesNext_blank (isBlank_gap hc), ih hitem]
      refine ⟨.gap hc, fun hcloses => ?_⟩
      cases hcloses with
      | bracket hb => rcases hb with rfl | rfl <;> cases hc
      | gap _ hrest => exact hrest
  | @mark _ c _ _ _ hc _ _ =>
      by_cases hbracket : c = ']' ∨ c = '}'
      · rw [closesNext_char (isBlank_mark hc)]
        exact iff_of_true (by simpa using hbracket) (.bracket hbracket)
      · exact opens_iff (isBlank_mark hc) hbracket
  | quoted => exact opens_iff rfl (by decide)
  | scalar cs hne hcs =>
      obtain ⟨c, cs, rfl⟩ := List.exists_cons_of_ne_nil hne
      have hc := hcs c List.mem_cons_self
      exact opens_iff (isBlank_scalar hc) fun hbracket =>
        hbracket.elim (scalar_ne hc rfl) (scalar_ne hc rfl)
  | space hc _ ih => rw [closesNext_blank (isBlank_gap hc), ih hitem]
  | comma => cases hitem
  | line _ hallowed => cases hallowed
  | block _ hallowed => cases hallowed

/-- In a list of tokens, a comma comes before a closing bracket. -/
def ClosingComma (ts : List Token) : Prop :=
  ∃ us vs b, (b = .closeArray ∨ b = .closeRecord) ∧ ts = us ++ .comma :: b :: vs

/-- The scan of a text comes to an end, with no closing comma before it or in it. -/
def Tidy (done : List Token) (t : List Char) : Prop :=
  ∃ ts, after done t = some ts ∧ ¬ClosingComma ts.reverse

theorem Tidy.of_closed {ts : List Token} (hcs : Closed cs ts) (h : Tidy done (cs ++ t)) :
    Tidy (ts.reverse ++ done) t := by
  obtain ⟨all, hall, hcommas⟩ := h
  exact ⟨all, (hcs t done).symm.trans hall, hcommas⟩

theorem Tidy.of_char {ts : List Token} (hc : Closed [c] ts) (h : Tidy done (c :: t)) :
    Tidy (ts.reverse ++ done) t := .of_closed hc h

theorem Tidy.quoted (hcs : Quotable cs) (h : Tidy done ('"' :: (cs ++ ['"']) ++ t)) :
    ∃ done', Tidy done' t := by
  rcases quoted_scanned hcs with hnone | ⟨ts, hclosed⟩
  · obtain ⟨all, hall, -⟩ := h
    cases (hnone t done).symm.trans hall
  · exact ⟨_, h.of_closed hclosed⟩

theorem Tidy.scalar (hne : cs ≠ []) (hcs : ∀ c ∈ cs, isScalarPart c = true) (ht : Delimited t)
    (h : Tidy done (cs ++ t)) : ∃ done', Tidy done' t := by
  obtain ⟨all, hall, hcommas⟩ := h
  rcases scalar_scanned hne hcs with hnone | ⟨ts, hspells⟩
  · cases (hnone t done ht).symm.trans hall
  · exact ⟨_, all, (hspells t done ht).symm.trans hall, hcommas⟩

/-- Tokens that were found stay as they are. -/
theorem after_extends {ts : List Token} (h : after done t = some ts) :
    ∃ more, ts = more ++ done := by
  have hdone := after_append t [] done
  rw [List.append_nil, h] at hdone
  obtain ⟨s, hs, hend⟩ := Option.bind_eq_some_iff.1 hdone.symm
  obtain ⟨s', -, hs'⟩ := Option.bind_eq_some_iff.1 hs
  cases hs'
  rcases s' with ⟨mode, seen⟩
  have hscalar : ∀ v? : Option Value,
      (v?.map fun v => Token.scalar v :: (seen ++ done)) = some ts → ∃ more, ts = more ++ done := by
    intro v? hv
    obtain ⟨v, -, rfl⟩ := Option.map_eq_some_iff.1 hv
    exact ⟨.scalar v :: seen, rfl⟩
  cases mode with
  | between =>
      cases hend
      exact ⟨seen, rfl⟩
  | number cs =>
      refine hscalar ((Number.ofLexeme? cs.reverse).map .num) ?_
      rw [Option.map_map]
      exact hend
  | word cs => exact hscalar (wordValue? cs.reverse) hend
  | text => cases hend
  | escape => cases hend
  | code => cases hend

/-- After a comma there comes no closing bracket. -/
theorem Tidy.not_closes (h : Tidy (.comma :: done) t) : ¬Closes t := by
  intro hcloses
  induction hcloses with
  | @bracket b t hb =>
      obtain ⟨m, hmark, hm⟩ : ∃ m, ofMark? b = some m ∧ (m = .closeArray ∨ m = .closeRecord) := by
        rcases hb with rfl | rfl
        · exact ⟨_, rfl, .inl rfl⟩
        · exact ⟨_, rfl, .inr rfl⟩
      obtain ⟨all, hall, hcommas⟩ := h.of_char (closed_mark hmark)
      obtain ⟨more, rfl⟩ := after_extends hall
      exact hcommas ⟨done.reverse, more.reverse, m, hm, by simp⟩
  | @gap c t hc _ ih => exact ih (h.of_char (closed_gap hc))

/-- The second pass takes out the commas. -/
theorem Decorated.stripCommas (h : Decorated false commas item t d) (htidy : Tidy done t)
    (item' : Bool) : Decorated false false item' t (Comments.stripCommas false d) := by
  induction h generalizing done item' with
  | done =>
      rw [Comments.stripCommas]
      exact .done
  | @gap _ c t d hc _ ih =>
      rw [stripCommas_plain (.inl (gap_ne hc rfl)), decide_eq_false (gap_ne hc rfl)]
      exact .gap hc (ih (htidy.of_char (closed_gap hc)) item')
  | @mark _ c m t d hc hd ih =>
      have hrest := htidy.of_char (closed_mark hc)
      have hkept : c ≠ ',' ∨ closesNext d = false := by
        by_cases hcomma : c = ','
        · subst hcomma
          cases hc
          exact .inr (Bool.eq_false_iff.2 fun hcloses =>
            hrest.not_closes ((hd.closesNext_iff rfl).1 hcloses))
        · exact .inl hcomma
      rw [stripCommas_plain hkept, decide_eq_false (mark_ne hc rfl)]
      exact .mark hc (ih hrest _)
  | quoted cs hcs _ ih =>
      obtain ⟨done', hrest⟩ := htidy.quoted hcs
      rw [(quotable_inert hcs).enquoted.stripCommas_eq]
      exact .quoted cs hcs (ih hrest _)
  | scalar cs hne hcs ht _ ih =>
      obtain ⟨done', hrest⟩ := htidy.scalar hne hcs ht
      rw [(scalar_inert hcs).stripCommas_eq]
      exact .scalar cs hne hcs ht (ih hrest _)
  | space hc _ ih =>
      rw [stripCommas_plain (.inl (gap_ne hc rfl)), decide_eq_false (gap_ne hc rfl)]
      exact .space hc (ih htidy item')
  | @comma t d _ hcloses hd ih =>
      have hcomma : Comments.stripCommas false (',' :: d) = Comments.stripCommas false d := by
        rw [Comments.stripCommas.eq_def]
        simp [(hd.closesNext_iff rfl).2 hcloses]
      rw [hcomma]
      exact ih htidy item'
  | line _ hallowed => cases hallowed
  | block _ hallowed => cases hallowed

/-! ## The scan -/

theorem Decorated.delimited (h : Decorated false false item t d) (ht : Delimited t) :
    Delimited d := by
  cases h with
  | done => exact .nil
  | gap hc => exact delimited_cons.2 (isScalarPart_gap hc)
  | mark hc => exact delimited_cons.2 (isScalarPart_mark hc)
  | quoted => exact delimited_cons.2 rfl
  | scalar cs hne hcs =>
      obtain ⟨c, cs, rfl⟩ := List.exists_cons_of_ne_nil hne
      exact delimited_cons.2 (delimited_cons.1 ht)
  | space hc => exact delimited_cons.2 (isScalarPart_gap hc)
  | comma hallowed => cases hallowed
  | line _ hallowed => cases hallowed
  | block _ hallowed => cases hallowed

/-- White space makes no difference to the tokens. -/
theorem Decorated.after_eq (h : Decorated false false item t d) (done : List Token) :
    after done d = after done t := by
  induction h generalizing done with
  | done => rfl
  | @gap _ c t d hc _ ih =>
      exact (closed_gap hc d done).trans ((ih _).trans (closed_gap hc t done).symm)
  | @mark _ c m t d hc _ ih =>
      exact (closed_mark hc d done).trans ((ih _).trans (closed_mark hc t done).symm)
  | @quoted _ cs t d hcs _ ih =>
      rcases quoted_scanned hcs with hnone | ⟨ts, hclosed⟩
      · rw [hnone, hnone]
      · rw [hclosed, hclosed, ih]
  | @scalar _ cs t d hne hcs ht hd ih =>
      have hd' := hd.delimited ht
      rcases scalar_scanned hne hcs with hnone | ⟨ts, hspells⟩
      · rw [hnone _ _ ht, hnone _ _ hd']
      · rw [hspells _ _ ht, hspells _ _ hd', ih]
  | @space _ c t d hc _ ih => exact (closed_gap hc d done).trans (ih done)
  | comma hallowed => cases hallowed
  | line _ hallowed => cases hallowed
  | block _ hallowed => cases hallowed

end Comments

end ProxyFleet
