import ProxyFleet.Proofs.Value.Spelling

/-!
# Texts as pieces

Whatever a text looks like, it falls into gaps, marks, quoted texts, and runs of the
characters that numbers and words are made of. The scan either fails in such a piece or
leaves it with tokens that do not depend on what stands around it, so that two texts of
the same pieces are scanned alike.
-/

namespace ProxyFleet

namespace Token

variable {cs ds : List Char} {ts : List Token} {m : Mode} {done : List Token} {c : Char}

/-! ## Gaps and marks -/

/-- The token that a character is by itself. -/
def ofMark? (c : Char) : Option Token :=
  if c = '[' then some .openArray
  else if c = ']' then some .closeArray
  else if c = '{' then some .openRecord
  else if c = '}' then some .closeRecord
  else if c = ',' then some .comma
  else if c = ':' then some .colon
  else none

/-- A character of numbers or words. -/
def isScalarPart (c : Char) : Bool := continuesNumber c || c.isLower

theorem ofMark?_cases {mark : Token} (h : ofMark? c = some mark) :
    c = '[' ∧ mark = .openArray ∨ c = ']' ∧ mark = .closeArray ∨ c = '{' ∧ mark = .openRecord ∨
      c = '}' ∧ mark = .closeRecord ∨ c = ',' ∧ mark = .comma ∨ c = ':' ∧ mark = .colon := by
  unfold ofMark? at h
  repeat' split at h
  all_goals simp_all

theorem closed_gap (h : isGap c = true) : Closed [c] [] :=
  .char fun done => by rw [start, if_pos h]; rfl

theorem closed_mark {mark : Token} (h : ofMark? c = some mark) : Closed [c] [mark] := by
  rcases ofMark?_cases h with ⟨rfl, rfl⟩ | ⟨rfl, rfl⟩ | ⟨rfl, rfl⟩ | ⟨rfl, rfl⟩ | ⟨rfl, rfl⟩ |
    ⟨rfl, rfl⟩ <;> exact .char fun _ => rfl

theorem gap_cases (h : isGap c = true) : c = ' ' ∨ c = '\t' ∨ c = '\n' ∨ c = '\r' := by
  simpa [isGap, or_assoc] using h

theorem isScalarPart_gap (h : isGap c = true) : isScalarPart c = false := by
  rcases gap_cases h with rfl | rfl | rfl | rfl <;> rfl

theorem isScalarPart_mark {mark : Token} (h : ofMark? c = some mark) : isScalarPart c = false := by
  rcases ofMark?_cases h with
    ⟨rfl, -⟩ | ⟨rfl, -⟩ | ⟨rfl, -⟩ | ⟨rfl, -⟩ | ⟨rfl, -⟩ | ⟨rfl, -⟩ <;> rfl

theorem delimited_cons : Delimited (c :: cs) ↔ isScalarPart c = false := by
  simp [Delimited, isScalarPart]

/-! ## Numbers and words -/

/-- The scan is inside of a number or a word. -/
inductive Mode.Scalar : Mode → Prop
  | number (seen : List Char) : Scalar (.number seen)
  | word (seen : List Char) : Scalar (.word seen)

/-- The value of a number or a word that ends here. -/
def Mode.value? : Mode → Option Value
  | .number seen => (Number.ofLexeme? seen.reverse).map .num
  | .word seen => wordValue? seen.reverse
  | _ => none

theorem start_scalar {s : Scan} (hc : isScalarPart c = true) (h : start done c = some s) :
    s.mode.Scalar := by
  have hgap : ¬isGap c = true := fun hgap => by
    rw [isScalarPart_gap hgap] at hc
    cases hc
  have hne : ∀ x : Char, isScalarPart x = false → c ≠ x := by
    rintro x hx rfl
    rw [hx] at hc
    cases hc
  unfold start at h
  rw [if_neg hgap, if_neg (hne _ rfl), if_neg (hne _ rfl), if_neg (hne _ rfl),
    if_neg (hne _ rfl), if_neg (hne _ rfl), if_neg (hne _ rfl), if_neg (hne _ rfl)] at h
  split at h
  · cases h
    exact .number [c]
  · split at h
    · cases h
      exact .word [c]
    · cases h

/-- A number or a word is gone on with, or another one begins. -/
theorem step_scalar {s : Scan} (hm : m = .between ∨ m.Scalar) (hc : isScalarPart c = true)
    (h : step ⟨m, done⟩ c = some s) : s.mode.Scalar := by
  rcases hm with rfl | ⟨seen⟩ | ⟨seen⟩
  · exact start_scalar hc h
  · by_cases hmore : continuesNumber c = true
    · obtain rfl := Option.some.inj ((if_pos hmore).symm.trans h)
      exact .number _
    · obtain ⟨n, -, hstart⟩ := Option.bind_eq_some_iff.1 ((if_neg hmore).symm.trans h)
      exact start_scalar hc hstart
  · by_cases hmore : c.isLower = true
    · obtain rfl := Option.some.inj ((if_pos hmore).symm.trans h)
      exact .word _
    · obtain ⟨v, -, hstart⟩ := Option.bind_eq_some_iff.1 ((if_neg hmore).symm.trans h)
      exact start_scalar hc hstart

theorem foldlM_scalar {s : Scan} (hcs : ∀ c ∈ cs, isScalarPart c = true)
    (hm : m.Scalar ∨ m = .between ∧ cs ≠ []) (h : cs.foldlM step ⟨m, done⟩ = some s) :
    s.mode.Scalar := by
  induction cs generalizing m done with
  | nil =>
      cases h
      exact hm.resolve_right fun h => h.2 rfl
  | cons c cs ih =>
      rw [List.foldlM_cons] at h
      obtain ⟨⟨m', done'⟩, hstep, hrest⟩ := Option.bind_eq_some_iff.1 h
      have hscalar := step_scalar (hm.symm.imp_left And.left) (hcs c List.mem_cons_self) hstep
      exact ih (fun d hd => hcs d (List.mem_cons_of_mem c hd)) (.inl hscalar) hrest

/-- A number or a word ends before what does not continue it, if it is one. -/
theorem scalar_ends (hm : m.Scalar) (hds : Delimited ds) (done : List Token) :
    (ds.foldlM step ⟨m, done⟩).bind finish =
      m.value?.bind fun v => after (.scalar v :: done) ds := by
  cases hm with
  | number seen =>
      cases hn : Number.ofLexeme? seen.reverse with
      | some n =>
          rw [number_ends hn hds, Mode.value?, hn]
          rfl
      | none =>
          rw [Mode.value?, hn]
          cases ds with
          | nil =>
              change (Number.ofLexeme? seen.reverse).map _ = _
              rw [hn]
              rfl
          | cons c ds =>
              have hstep : step ⟨.number seen, done⟩ c = none := by
                change (if continuesNumber c = true then _ else _) = _
                rw [if_neg (by rw [(hds c rfl).1]; decide), hn]
                rfl
              rw [List.foldlM_cons, hstep]
              rfl
  | word seen =>
      cases hv : wordValue? seen.reverse with
      | some v =>
          rw [word_ends seen hv hds, Mode.value?, hv]
          rfl
      | none =>
          rw [Mode.value?, hv]
          cases ds with
          | nil =>
              change (wordValue? seen.reverse).map _ = _
              rw [hv]
              rfl
          | cons c ds =>
              have hstep : step ⟨.word seen, done⟩ c = none := by
                change (if c.isLower = true then _ else _) = _
                rw [if_neg (by rw [(hds c rfl).2]; decide), hv]
                rfl
              rw [List.foldlM_cons, hstep]
              rfl

/-- What was found before a piece comes before the tokens of the piece. -/
theorem after_append (cs rest : List Char) (done : List Token) : after done (cs ++ rest) =
    ((cs.foldlM step ⟨.between, []⟩).bind fun s =>
      rest.foldlM step ⟨s.mode, s.done ++ done⟩).bind finish := by
  have hdone := foldlM_done cs .between [] done
  rw [List.nil_append] at hdone
  rw [after, List.foldlM_append, hdone]
  cases cs.foldlM step ⟨.between, []⟩ <;> rfl

/-- A run of such characters spells tokens, or the scan fails there. -/
theorem scalar_scanned (hne : cs ≠ []) (h : ∀ c ∈ cs, isScalarPart c = true) :
    (∀ rest done, Delimited rest → after done (cs ++ rest) = none) ∨ ∃ ts, Spells cs ts := by
  cases hpiece : cs.foldlM step ⟨.between, []⟩ with
  | none =>
      refine .inl fun rest done _ => ?_
      rw [after_append, hpiece]
      rfl
  | some s =>
      have hscalar := foldlM_scalar h (.inr ⟨rfl, hne⟩) hpiece
      have hends : ∀ rest done, Delimited rest → after done (cs ++ rest) =
          s.mode.value?.bind fun v => after (.scalar v :: (s.done ++ done)) rest := by
        intro rest done hrest
        rw [after_append, hpiece]
        exact scalar_ends hscalar hrest _
      cases hvalue : s.mode.value? with
      | none =>
          refine .inl fun rest done hrest => ?_
          rw [hends rest done hrest, hvalue]
          rfl
      | some v =>
          refine .inr ⟨(.scalar v :: s.done).reverse, fun rest done hrest => ?_⟩
          rw [hends rest done hrest, hvalue, List.reverse_reverse]
          rfl

/-! ## Quoted texts -/

/-- What may stand between quotes: every quote and every backslash there is escaped. -/
inductive Quotable : List Char → Prop
  | nil : Quotable []
  | char {c : Char} {cs : List Char} : c ≠ '"' → c ≠ '\\' → Quotable cs → Quotable (c :: cs)
  | escape {c : Char} {cs : List Char} : Quotable cs → Quotable ('\\' :: c :: cs)

/-- The scan is inside of a quoted text, and not just behind a backslash. -/
inductive Mode.Inside : Mode → Prop
  | text (seen : List Char) (half : Option Nat) : Inside (.text seen half)
  | code (seen : List Char) (half : Option Nat) (value left : Nat) :
      Inside (.code seen half value left)

theorem putUnit_inside (seen : List Char) (half : Option Nat) (unit : Nat) :
    (putUnit seen half unit).Inside := by
  unfold putUnit
  repeat' split
  all_goals exact .text _ _

theorem step_code {s : Scan} {seen : List Char} {half : Option Nat} {value left : Nat}
    (h : step ⟨.code seen half value left, done⟩ c = some s) : s.mode.Inside ∧ s.done = done := by
  obtain ⟨d, -, rfl⟩ := Option.map_eq_some_iff.1 h
  split
  · exact ⟨putUnit_inside _ _ _, rfl⟩
  · exact ⟨.code _ _ _ _, rfl⟩

theorem step_inside {s : Scan} (hm : m.Inside) (hquote : c ≠ '"') (hbackslash : c ≠ '\\')
    (h : step ⟨m, done⟩ c = some s) : s.mode.Inside ∧ s.done = done := by
  cases hm with
  | text seen half =>
      have hchar := ((if_neg hquote).trans (if_neg hbackslash)).symm.trans h
      split at hchar
      · cases hchar
      · cases hchar
        exact ⟨.text _ _, rfl⟩
  | code seen half value left => exact step_code h

/-- A backslash and what it escapes. -/
theorem step_escape {s t : Scan} (hm : m.Inside) (hs : step ⟨m, done⟩ '\\' = some s)
    (ht : step s c = some t) : t.mode.Inside ∧ t.done = done := by
  cases hm with
  | text seen half =>
      cases hs
      by_cases hunit : c = 'u'
      · cases (if_pos hunit).symm.trans ht
        exact ⟨.code _ _ _ _, rfl⟩
      · obtain ⟨e, -, rfl⟩ := Option.map_eq_some_iff.1 ((if_neg hunit).symm.trans ht)
        exact ⟨.text _ _, rfl⟩
  | code seen half value left => cases hs

theorem foldlM_inside {s : Scan} (hcs : Quotable cs) (hm : m.Inside)
    (h : cs.foldlM step ⟨m, done⟩ = some s) : s.mode.Inside ∧ s.done = done := by
  induction hcs generalizing m with
  | nil =>
      cases h
      exact ⟨hm, rfl⟩
  | char hquote hbackslash _ ih =>
      rw [List.foldlM_cons] at h
      obtain ⟨⟨m', done'⟩, hstep, hrest⟩ := Option.bind_eq_some_iff.1 h
      obtain ⟨hinside, rfl⟩ := step_inside hm hquote hbackslash hstep
      exact ih hinside hrest
  | escape _ ih =>
      rw [List.foldlM_cons] at h
      obtain ⟨s, hs, h⟩ := Option.bind_eq_some_iff.1 h
      rw [List.foldlM_cons] at h
      obtain ⟨⟨m', done'⟩, hstep, hrest⟩ := Option.bind_eq_some_iff.1 h
      obtain ⟨hinside, rfl⟩ := step_escape hm hs hstep
      exact ih hinside hrest

/-- A quoted text is a token, or the scan fails there. -/
theorem quoted_scanned (h : Quotable cs) :
    (∀ rest done, after done ('"' :: (cs ++ ['"']) ++ rest) = none) ∨
      ∃ ts, Closed ('"' :: (cs ++ ['"'])) ts := by
  cases hpiece : ('"' :: (cs ++ ['"'])).foldlM step ⟨.between, []⟩ with
  | none =>
      refine .inl fun rest done => ?_
      rw [after_append, hpiece]
      rfl
  | some s =>
      have htext : (cs ++ ['"']).foldlM step ⟨.text [] none, []⟩ = some s := hpiece
      rw [List.foldlM_append] at htext
      obtain ⟨⟨m', done'⟩, hinner, hclose⟩ := Option.bind_eq_some_iff.1 htext
      have hend : s.mode = .between := by
        cases (foldlM_inside h (.text [] none) hinner).1 with
        | text seen half =>
            cases hclose
            rfl
        | code seen half value left => cases hclose
      refine .inr ⟨s.done.reverse, .of_scan ?_⟩
      rw [hpiece, List.reverse_reverse, ← hend]

end Token

end ProxyFleet
