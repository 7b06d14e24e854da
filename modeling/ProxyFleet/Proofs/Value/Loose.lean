import ProxyFleet.Proofs.Value.Commented

/-!
# What is accepted as a data text with comments

Comments and closing commas are taken out before a single token is known. So a comment
may also stand between two characters of one number, a block comment at the end of the
text need not be closed, and a comma may stand in brackets that hold nothing else.
`Comments.Loose` is the relation with these liberties, and `Value.ofCommentedText?_iff`
says that it is just what is accepted: no text less and no text more.

Both directions walk along the text character by character. Where a comment tears a
number, the scan is in the midst of it, so what is carried along is a scan that comes to
an end from any mode outside of quotes (`Token.Ends`), not only from between two tokens.
-/

namespace ProxyFleet

namespace Token

variable {c : Char} {cs t : List Char} {m : Mode} {done : List Token} {s : Scan}

/-! ## Scans that come to an end -/

/-- The scan is outside of quotes. -/
def Mode.Outer (m : Mode) : Prop := m = .between ∨ m.Scalar

/-- A character of a data text outside of its quotes. -/
def isOuter (c : Char) : Bool := isGap c || (ofMark? c).isSome || isScalarPart c

theorem outer_cases (h : isOuter c = true) :
    isGap c = true ∨ (∃ mark, ofMark? c = some mark) ∨ isScalarPart c = true := by
  simp only [isOuter, Bool.or_eq_true, Option.isSome_iff_exists] at h
  obtain (h | h) | h := h
  · exact .inl h
  · exact .inr (.inl h)
  · exact .inr (.inr h)

theorem outer_ne {x : Char} (h : isOuter c = true) (hx : isOuter x = false) : c ≠ x := by
  rintro rfl
  simp [h] at hx

theorem start_outer (h : start done c = some s) :
    (c = '"' ∧ s = ⟨.text [] none, done⟩) ∨ (isOuter c = true ∧ s.mode.Outer) := by
  rcases start_cases h with hgap | ⟨mark, hmark⟩ | rfl | hscalar
  · obtain rfl := Option.some.inj ((if_pos hgap).symm.trans h)
    exact .inr ⟨by simp [isOuter, hgap], .inl rfl⟩
  · refine .inr ⟨by simp [isOuter, hmark], .inl ?_⟩
    rcases ofMark?_cases hmark with
      ⟨rfl, -⟩ | ⟨rfl, -⟩ | ⟨rfl, -⟩ | ⟨rfl, -⟩ | ⟨rfl, -⟩ | ⟨rfl, -⟩ <;> cases h <;> rfl
  · cases h
    exact .inl ⟨rfl, rfl⟩
  · exact .inr ⟨by simp [isOuter, hscalar], .inr (start_scalar hscalar h)⟩

/-- Outside of quotes, a character opens a quoted text or leaves the scan outside. -/
theorem step_outer (hm : m.Outer) (h : step ⟨m, done⟩ c = some s) :
    (c = '"' ∧ s.mode = .text [] none) ∨ (isOuter c = true ∧ s.mode.Outer) := by
  have hstart : ∀ {done' : List Token}, start done' c = some s →
      (c = '"' ∧ s.mode = .text [] none) ∨ (isOuter c = true ∧ s.mode.Outer) := fun h =>
    (start_outer h).imp_left fun ⟨hc, hs⟩ => ⟨hc, by rw [hs]⟩
  rcases hm with rfl | hm
  · exact hstart h
  · by_cases hc : isScalarPart c = true
    · exact .inr ⟨by simp [isOuter, hc], .inr (step_scalar (.inr hm) hc h)⟩
    · simp only [isScalarPart, Bool.or_eq_true, not_or] at hc
      cases hm with
      | number seen =>
          obtain ⟨n, -, hn⟩ := Option.bind_eq_some_iff.1 ((if_neg hc.1).symm.trans h)
          exact hstart hn
      | word seen =>
          obtain ⟨v, -, hv⟩ := Option.bind_eq_some_iff.1 ((if_neg hc.2).symm.trans h)
          exact hstart hv

/-- From this mode the scan of a text comes to an end, and there is no comma before a closing
bracket. -/
def Ends (m : Mode) (t : List Char) : Prop := ∃ done s ts,
  t.foldlM step ⟨m, done⟩ = some s ∧ finish s = some ts ∧ ¬Comments.ClosingComma ts.reverse

theorem Ends.of_read {v : Value} (h : Value.ofChars? t = some v) : Ends .between t := by
  obtain ⟨ts, hscan, hread⟩ := Option.bind_eq_some_iff.1 h
  obtain ⟨s, hs, hend⟩ := Option.bind_eq_some_iff.1 hscan
  obtain ⟨us, hus, rfl⟩ := Option.map_eq_some_iff.1 hend
  exact ⟨[], s, us, hs, hus, Reader.ofTokens?_closing hread⟩

theorem Ends.step (h : Ends m (c :: t)) :
    ∃ done s, Token.step ⟨m, done⟩ c = some s ∧ Ends s.mode t := by
  obtain ⟨done, s, ts, hs, hend⟩ := h
  rw [List.foldlM_cons] at hs
  obtain ⟨s', hstep, hrest⟩ := Option.bind_eq_some_iff.1 hs
  exact ⟨done, s', hstep, s'.done, s, ts, hrest, hend⟩

theorem Ends.cons (hm : m.Outer) (h : Ends m (c :: t)) :
    (c = '"' ∧ Ends (.text [] none) t) ∨
      (isOuter c = true ∧ ∃ m' : Mode, m'.Outer ∧ Ends m' t) := by
  obtain ⟨done, s, hstep, hrest⟩ := h.step
  rcases step_outer hm hstep with ⟨hc, hmode⟩ | ⟨hc, houter⟩
  · rw [hmode] at hrest
    exact .inl ⟨hc, hrest⟩
  · exact .inr ⟨hc, s.mode, houter, hrest⟩

theorem Ends.outer (hm : m.Outer) (hc : isOuter c = true) (h : Ends m (c :: t)) :
    ∃ m' : Mode, m'.Outer ∧ Ends m' t := by
  rcases h.cons hm with ⟨rfl, -⟩ | ⟨-, hrest⟩
  · cases hc
  · exact hrest

/-- Behind its quotes, a quoted text is scanned like any other. -/
theorem Ends.quoted (hm : m.Inside) (hcs : Quotable cs) (h : Ends m (cs ++ '"' :: t)) :
    Ends .between t := by
  obtain ⟨done, s, ts, hs, hend⟩ := h
  rw [List.foldlM_append] at hs
  obtain ⟨⟨m', done'⟩, hinner, hs⟩ := Option.bind_eq_some_iff.1 hs
  rw [List.foldlM_cons] at hs
  obtain ⟨s', hclose, hs⟩ := Option.bind_eq_some_iff.1 hs
  cases (foldlM_inside hcs hm hinner).1 with
  | text seen half =>
      cases hclose
      exact ⟨_, s, ts, hs, hend⟩
  | code seen half value left => cases hclose

theorem Ends.closes (hm : m.Inside) (h : Ends m t) :
    ∃ inner rest, Quotable inner ∧ t = inner ++ '"' :: rest := by
  obtain ⟨done, s, ts, hs, hend, -⟩ := h
  exact quoted_closes hend hm hs

/-- Behind a comma comes no closing bracket. -/
theorem Ends.comma (hm : m.Outer) (h : Ends m (',' :: t)) : ¬Comments.Closes t := by
  obtain ⟨done, s, ts, hs, hend, hcommas⟩ := h
  rw [List.foldlM_cons] at hs
  obtain ⟨s', hstep, hrest⟩ := Option.bind_eq_some_iff.1 hs
  have hs' : ∃ done', s' = ⟨.between, .comma :: done'⟩ := by
    rcases hm with rfl | ⟨seen⟩ | ⟨seen⟩
    · exact ⟨done, (Option.some.inj hstep).symm⟩
    · obtain ⟨n, -, hn⟩ := Option.bind_eq_some_iff.1 hstep
      exact ⟨_, (Option.some.inj hn).symm⟩
    · obtain ⟨v, -, hv⟩ := Option.bind_eq_some_iff.1 hstep
      exact ⟨_, (Option.some.inj hv).symm⟩
  obtain ⟨done', rfl⟩ := hs'
  have htidy : Comments.Tidy (.comma :: done') t :=
    ⟨ts, (congrArg (·.bind finish) hrest).trans hend, hcommas⟩
  exact htidy.not_closes

end Token

namespace Comments

open Token

variable {comments : Bool} {c : Char} {cs t d : List Char}

/-! ## The relation -/

/-- A text that goes on with a closing bracket, behind white space and comments. -/
inductive Shuts : List Char → Prop
  | bracket {b : Char} {d : List Char} : b = ']' ∨ b = '}' → Shuts (b :: d)
  | gap {c : Char} {d : List Char} : isGap c = true → Shuts d → Shuts (c :: d)
  | line (cs : List Char) {d : List Char} : '\n' ∉ cs → Shuts d →
      Shuts ('/' :: '/' :: (cs ++ '\n' :: d))
  | block (cs : List Char) {d : List Char} : ¬['*', '/'] <:+: cs → Shuts d →
      Shuts ('/' :: '*' :: (cs ++ '*' :: '/' :: d))

/-- A text, and what is read as it. Where comments are allowed, they can stand anywhere but within
quotes, and the last one need not be closed. Right before a closing bracket there can be a comma. -/
inductive Loose (comments : Bool) : List Char → List Char → Prop
  | done : Loose comments [] []
  | outer {c : Char} {t d : List Char} : isOuter c = true → Loose comments t d →
      Loose comments (c :: t) (c :: d)
  | quoted (cs : List Char) {t d : List Char} : Quotable cs → Loose comments t d →
      Loose comments ('"' :: (cs ++ ['"']) ++ t) ('"' :: (cs ++ ['"']) ++ d)
  | comma {t d : List Char} : Shuts d → Loose comments t d → Loose comments t (',' :: d)
  | line (cs : List Char) {t d : List Char} : comments = true → '\n' ∉ cs → Loose comments t d →
      Loose comments ('\n' :: t) ('/' :: '/' :: (cs ++ '\n' :: d))
  | block (cs : List Char) {t d : List Char} : comments = true → ¬['*', '/'] <:+: cs →
      Loose comments t d → Loose comments t ('/' :: '*' :: (cs ++ '*' :: '/' :: d))
  | lastLine (cs : List Char) : comments = true → '\n' ∉ cs →
      Loose comments [] ('/' :: '/' :: cs)
  | lastBlock (cs : List Char) : comments = true → ¬['*', '/'] <:+: cs →
      Loose comments [] ('/' :: '*' :: cs)

theorem isBlank_outer (h : isOuter c = true) : isBlank c = isGap c := by
  rcases outer_cases h with hgap | ⟨mark, hmark⟩ | hscalar
  · rw [hgap, isBlank_gap hgap]
  · rw [isBlank_mark hmark]
    rcases ofMark?_cases hmark with
      ⟨rfl, -⟩ | ⟨rfl, -⟩ | ⟨rfl, -⟩ | ⟨rfl, -⟩ | ⟨rfl, -⟩ | ⟨rfl, -⟩ <;> rfl
  · rw [isBlank_scalar hscalar]
    refine (Bool.eq_false_iff.2 fun hgap => ?_).symm
    rw [isScalarPart_gap hgap] at hscalar
    cases hscalar

/-! ## Where comments and quotes end -/

/-- A line comment reaches to the end of its line or of the text. -/
theorem line_split (t : List Char) :
    '\n' ∉ t ∨ ∃ cs d, '\n' ∉ cs ∧ t = cs ++ '\n' :: d := by
  by_cases h : '\n' ∈ t
  · obtain ⟨cs, d, rfl, hcs⟩ := List.eq_append_cons_of_mem h
    exact .inr ⟨cs, d, hcs, rfl⟩
  · exact .inl h

/-- A block comment is closed, or all of the text is taken for it. -/
theorem block_split (t : List Char) : (¬['*', '/'] <:+: t ∧ strip .blockComment t = []) ∨
    ∃ cs d, ¬['*', '/'] <:+: cs ∧ t = cs ++ '*' :: '/' :: d := by
  induction t with
  | nil => exact .inl ⟨by simp, by rw [strip]⟩
  | cons c t ih =>
      by_cases hclose : c = '*' ∧ t.head? = some '/'
      · obtain ⟨rfl, hhead⟩ := hclose
        obtain ⟨d, rfl⟩ := List.head?_eq_some_iff.1 hhead
        exact .inr ⟨[], d, by simp, rfl⟩
      · -- no comment is closed right here
        have hfirst : ∀ {rest : List Char}, ¬['*', '/'] <:+: rest → t.head? = rest.head? →
            ¬['*', '/'] <:+: c :: rest := by
          intro rest hrest hhead hinfix
          rcases List.infix_cons_iff.1 hinfix with hprefix | hinfix
          · obtain ⟨more, hmore⟩ := hprefix
            cases hmore
            exact hclose ⟨rfl, hhead⟩
          · exact hrest hinfix
        have hstrip : strip .blockComment (c :: t) = strip .blockComment t := by
          rw [strip]
          rintro d rfl rfl
          exact hclose ⟨rfl, rfl⟩
        obtain ⟨hnone, hempty⟩ | ⟨cs, d, hcs, rfl⟩ := ih
        · exact .inl ⟨hfirst hnone rfl, hstrip.trans hempty⟩
        · cases cs with
          | nil =>
              refine .inr ⟨[c], d, fun hinfix => ?_, rfl⟩
              have := hinfix.length_le
              simp at this
          | cons c' cs => exact .inr ⟨c :: c' :: cs, d, hfirst hcs rfl, rfl⟩

/-- A quoted text is closed, or both passes leave all of the text as it is. -/
theorem quoted_split : ∀ t : List Char, (strip .quoted t = t ∧ stripCommas true t = t) ∨
    ∃ cs d, Quotable cs ∧ t = cs ++ '"' :: d
  | [] => .inl ⟨by rw [strip], by rw [stripCommas]⟩
  | [c] => by
      by_cases hquote : c = '"'
      · exact .inr ⟨[], [], .nil, by rw [hquote]; rfl⟩
      by_cases hbackslash : c = '\\'
      · exact .inl (by rw [hbackslash]; exact ⟨rfl, rfl⟩)
      · exact .inl (Inert.within hquote hbackslash [])
  | c :: c' :: t => by
      by_cases hquote : c = '"'
      · exact .inr ⟨[], c' :: t, .nil, by rw [hquote]; rfl⟩
      by_cases hbackslash : c = '\\'
      · subst hbackslash
        obtain ⟨hstrip, hcommas⟩ | ⟨cs, d, hcs, rfl⟩ := quoted_split t
        · have hkept := Inert.escaped c' t
          exact .inl ⟨hkept.1.trans (congrArg _ hstrip), hkept.2.trans (congrArg _ hcommas)⟩
        · exact .inr ⟨'\\' :: c' :: cs, d, .escape hcs, rfl⟩
      · obtain ⟨hstrip, hcommas⟩ | ⟨cs, d, hcs, ht⟩ := quoted_split (c' :: t)
        · have hkept := Inert.within hquote hbackslash (c' :: t)
          exact .inl ⟨hkept.1.trans (congrArg _ hstrip), hkept.2.trans (congrArg _ hcommas)⟩
        · exact .inr ⟨c :: cs, d, .char hquote hbackslash hcs, by rw [ht]; rfl⟩

/-! ## What is accepted is loose -/

theorem stripCommas_outer (h : isOuter c = true) (hcomma : c ≠ ',' ∨ closesNext t = false) :
    stripCommas false (c :: t) = c :: stripCommas false t := by
  rw [stripCommas_plain hcomma, decide_eq_false (outer_ne h (by decide))]

theorem strip_outer (h : isOuter c = true) : strip .plain (c :: t) = c :: strip .plain t :=
  strip_char (outer_ne h (by decide)) (outer_ne h (by decide)) t

theorem strip_wholeLine (hcs : '\n' ∉ cs) :
    strip .plain ('/' :: '/' :: (cs ++ '\n' :: d)) = '\n' :: strip .plain d := by
  have hline := strip_line hcs (d := '\n' :: d) fun c hc => (Option.some.inj hc).symm
  rw [strip, hline, strip_char (by decide) (by decide)]

theorem strip_wholeBlock (hcs : ¬['*', '/'] <:+: cs) :
    strip .plain ('/' :: '*' :: (cs ++ '*' :: '/' :: d)) = strip .plain d := by
  rw [strip, strip_block hcs]

/-- A comment on the last line takes the rest of the text with it. -/
theorem strip_lastLine (hcs : '\n' ∉ cs) : strip .lineComment cs = [] := by
  have hline := strip_line hcs (d := []) (by simp)
  rw [List.append_nil] at hline
  rw [hline, strip]

/-- What goes on with a closing bracket once its comments are taken out did so before. -/
theorem Loose.shuts (h : Loose true t d) (hcloses : closesNext (strip .plain d) = true) :
    Shuts d := by
  induction h with
  | done => simp [strip, closesNext] at hcloses
  | @outer c t d hc _ ih =>
      rw [strip_outer hc] at hcloses
      by_cases hgap : isGap c = true
      · rw [closesNext_blank (isBlank_gap hgap)] at hcloses
        exact .gap hgap (ih hcloses)
      · rw [closesNext_char (by simpa [isBlank_outer hc] using hgap)] at hcloses
        exact .bracket (by simpa using hcloses)
  | quoted cs hcs =>
      rw [(quotable_inert hcs).enquoted.strip_eq] at hcloses
      cases hcloses
  | comma =>
      rw [strip_outer rfl] at hcloses
      cases hcloses
  | line cs _ hcs _ ih =>
      rw [strip_wholeLine hcs, closesNext_blank rfl] at hcloses
      exact .line cs hcs (ih hcloses)
  | block cs _ hcs _ ih =>
      rw [strip_wholeBlock hcs] at hcloses
      exact .block cs hcs (ih hcloses)
  | lastLine cs _ hcs =>
      simp [strip, strip_lastLine hcs, closesNext] at hcloses
  | lastBlock cs _ hcs =>
      obtain ⟨-, hempty⟩ | ⟨cs, d, -, rfl⟩ := block_split cs
      · simp [strip, hempty, closesNext] at hcloses
      · exact absurd ⟨cs, d, by simp⟩ hcs

/-- What both passes leave of a text. -/
def bare (d : List Char) : List Char := stripCommas false (strip .plain d)

/-- If the scan of what is left of a text comes to an end, the text is read as what is left. -/
def Read (d : List Char) : Prop := ∀ m : Mode, m.Outer → Ends m (bare d) → Loose true (bare d) d

theorem read_line (ih : ∀ d, d.length < t.length → Read d) : Read ('/' :: '/' :: t) := by
  intro m hm h
  obtain hlast | ⟨cs, d, hcs, rfl⟩ := line_split t
  · rw [bare, strip, strip_lastLine hlast, stripCommas]
    exact .lastLine t rfl hlast
  · rw [bare, strip_wholeLine hcs, stripCommas_outer rfl (.inl (by decide))] at h ⊢
    obtain ⟨m', hm', hends⟩ := h.outer hm rfl
    exact .line cs rfl hcs (ih d (by simp; omega) m' hm' hends)

theorem read_block (ih : ∀ d, d.length < t.length → Read d) : Read ('/' :: '*' :: t) := by
  intro m hm h
  obtain ⟨hlast, hempty⟩ | ⟨cs, d, hcs, rfl⟩ := block_split t
  · rw [bare, strip, hempty, stripCommas]
    exact .lastBlock t rfl hlast
  · rw [bare, strip_wholeBlock hcs] at h ⊢
    exact .block cs rfl hcs (ih d (by simp; omega) m hm h)

/-- A slash that begins no comment is left, and the scan stops at it. -/
theorem read_slash (hline : t.head? ≠ some '/') (hblock : t.head? ≠ some '*') :
    Read ('/' :: t) := by
  intro m hm h
  have hstrip : strip .plain ('/' :: t) = '/' :: strip .plain t := by
    rw [strip, if_neg (by decide)]
    · rintro d - rfl
      exact hline rfl
    · rintro d - rfl
      exact hblock rfl
  rw [bare, hstrip, stripCommas_plain (.inl (by decide))] at h
  rcases h.cons hm with ⟨hquote, -⟩ | ⟨houter, -⟩
  · cases hquote
  · cases houter

theorem read_quoted (ih : ∀ d, d.length < t.length → Read d) : Read ('"' :: t) := by
  intro m hm h
  have hclosed : ∃ cs d, Quotable cs ∧ t = cs ++ '"' :: d := by
    obtain ⟨hstrip, hcommas⟩ | hclosed := quoted_split t
    · have hkept : bare ('"' :: t) = '"' :: t := by
        rw [bare, strip_plain (by decide), if_pos rfl, hstrip, stripCommas_plain (.inl (by decide)),
          decide_eq_true rfl, hcommas]
      rw [hkept] at h
      rcases h.cons hm with ⟨-, hinside⟩ | ⟨houter, -⟩
      · exact hinside.closes (.text [] none)
      · cases houter
    · exact hclosed
  obtain ⟨cs, d, hcs, rfl⟩ := hclosed
  have hpiece : '"' :: (cs ++ '"' :: d) = '"' :: (cs ++ ['"']) ++ d := by simp
  rw [hpiece, bare, (quotable_inert hcs).enquoted.strip_eq,
    (quotable_inert hcs).enquoted.stripCommas_eq] at h ⊢
  rw [List.cons_append, List.append_assoc, List.singleton_append] at h
  rcases h.cons hm with ⟨-, hinside⟩ | ⟨houter, -⟩
  · exact .quoted cs hcs (ih d (by simp; omega) .between (.inl rfl)
      (hinside.quoted (.text [] none) hcs))
  · cases houter

theorem read_char (hslash : c ≠ '/') (hquote : c ≠ '"') (ih : Read t) : Read (c :: t) := by
  intro m hm h
  rw [bare, strip_char hslash hquote] at h ⊢
  by_cases hclosing : c = ',' ∧ closesNext (strip .plain t) = true
  · obtain ⟨rfl, hcloses⟩ := hclosing
    have hcomma : stripCommas false (',' :: strip .plain t) = bare t := by
      rw [stripCommas.eq_def]
      simp [hcloses, bare]
    rw [hcomma] at h ⊢
    have hrest := ih m hm h
    exact .comma (hrest.shuts hcloses) hrest
  · have hkept : c ≠ ',' ∨ closesNext (strip .plain t) = false :=
      (Decidable.not_and_iff_not_or_not.1 hclosing).imp_right Bool.eq_false_iff.2
    rw [stripCommas_plain hkept, decide_eq_false hquote] at h ⊢
    rcases h.cons hm with ⟨rfl, -⟩ | ⟨houter, m', hm', hends⟩
    · exact absurd rfl hquote
    · exact .outer houter (ih m' hm' hends)

theorem read_all (d : List Char) : Read d := by
  induction hlength : d.length using Nat.strongRecOn generalizing d with
  | ind n ih =>
      subst hlength
      have ih : ∀ d', d'.length < d.length → Read d' := fun d' hd' => ih _ hd' d' rfl
      cases d with
      | nil =>
          intro m hm h
          rw [bare, strip, stripCommas]
          exact .done
      | cons c t =>
          have ih' : ∀ d', d'.length < t.length → Read d' := fun d' hd' =>
            ih d' (by simp; omega)
          by_cases hslash : c = '/'
          · subst hslash
            by_cases hline : t.head? = some '/'
            · obtain ⟨t, rfl⟩ := List.head?_eq_some_iff.1 hline
              exact read_line fun d hd => ih' d (by simp; omega)
            by_cases hblock : t.head? = some '*'
            · obtain ⟨t, rfl⟩ := List.head?_eq_some_iff.1 hblock
              exact read_block fun d hd => ih' d (by simp; omega)
            exact read_slash hline hblock
          by_cases hquote : c = '"'
          · exact hquote ▸ read_quoted ih'
          · exact read_char hslash hquote (ih t (by simp))

/-! ## What is loose is accepted -/

theorem Shuts.strip (h : Shuts d) : Shuts (Comments.strip .plain d) := by
  induction h with
  | bracket hb =>
      rw [strip_outer (by rcases hb with rfl | rfl <;> rfl)]
      exact .bracket hb
  | gap hc _ ih =>
      rw [strip_outer (by simp [isOuter, hc])]
      exact .gap hc ih
  | line cs hcs _ ih =>
      rw [strip_wholeLine hcs]
      exact .gap rfl ih
  | block cs hcs _ ih => rwa [strip_wholeBlock hcs]

/-- The first pass takes out the comments. -/
theorem Loose.strip (h : Loose true t d) : Loose false t (Comments.strip .plain d) := by
  induction h with
  | done =>
      rw [Comments.strip]
      exact .done
  | outer hc _ ih =>
      rw [strip_outer hc]
      exact .outer hc ih
  | quoted cs hcs _ ih =>
      rw [(quotable_inert hcs).enquoted.strip_eq]
      exact .quoted cs hcs ih
  | comma hd _ ih =>
      rw [strip_outer rfl]
      exact .comma hd.strip ih
  | line cs _ hcs _ ih =>
      rw [strip_wholeLine hcs]
      exact .outer rfl ih
  | block cs _ hcs _ ih => rwa [strip_wholeBlock hcs]
  | lastLine cs _ hcs =>
      rw [Comments.strip, strip_lastLine hcs]
      exact .done
  | lastBlock cs _ hcs =>
      obtain ⟨-, hempty⟩ | ⟨cs, d, -, rfl⟩ := block_split cs
      · rw [Comments.strip, hempty]
        exact .done
      · exact absurd ⟨cs, d, by simp⟩ hcs

theorem Loose.head_ne (h : Loose false t d) : d.head? ≠ some '/' := by
  intro hhead
  cases h with
  | done => cases hhead
  | outer hc => exact outer_ne hc rfl (Option.some.inj hhead)
  | quoted => cases hhead
  | comma => cases hhead
  | line _ hallowed => cases hallowed
  | block _ hallowed => cases hallowed
  | lastLine _ hallowed => cases hallowed
  | lastBlock _ hallowed => cases hallowed

theorem Loose.closesNext (h : Loose false t d) (hd : Shuts d) :
    Comments.closesNext d = true := by
  induction hd generalizing t with
  | bracket hb => rcases hb with rfl | rfl <;> rfl
  | @gap c d hc _ ih =>
      rw [closesNext_blank (isBlank_gap hc)]
      cases h with
      | outer _ h => exact ih h
      | quoted => cases hc
      | comma => cases hc
      | line _ hallowed => cases hallowed
      | block _ hallowed => cases hallowed
      | lastLine _ hallowed => cases hallowed
      | lastBlock _ hallowed => cases hallowed
  | line => exact absurd rfl h.head_ne
  | block => exact absurd rfl h.head_ne

theorem Loose.closes (h : Loose false t d) (hd : Comments.closesNext d = true) : Closes t := by
  induction h with
  | done => cases hd
  | @outer c t d hc _ ih =>
      by_cases hgap : isGap c = true
      · rw [closesNext_blank (isBlank_gap hgap)] at hd
        exact .gap hgap (ih hd)
      · rw [closesNext_char (by simpa [isBlank_outer hc] using hgap)] at hd
        exact .bracket (by simpa using hd)
  | quoted => cases hd
  | comma => cases hd
  | line _ hallowed => cases hallowed
  | block _ hallowed => cases hallowed
  | lastLine _ hallowed => cases hallowed
  | lastBlock _ hallowed => cases hallowed

/-- The second pass takes out the commas. -/
theorem Loose.stripCommas {m : Mode} (h : Loose false t d) (hm : m.Outer) (ht : Ends m t) :
    Comments.stripCommas false d = t := by
  induction h generalizing m with
  | done => rw [Comments.stripCommas]
  | @outer c t d hc hd ih =>
      have hkept : c ≠ ',' ∨ Comments.closesNext d = false := by
        by_cases hcomma : c = ','
        · subst hcomma
          exact .inr (Bool.eq_false_iff.2 fun hcloses => ht.comma hm (hd.closes hcloses))
        · exact .inl hcomma
      obtain ⟨m', hm', hends⟩ := ht.outer hm hc
      rw [stripCommas_outer hc hkept, ih hm' hends]
  | @quoted cs t d hcs _ ih =>
      rw [List.cons_append, List.append_assoc, List.singleton_append] at ht
      rcases ht.cons hm with ⟨-, hinside⟩ | ⟨houter, -⟩
      · rw [(quotable_inert hcs).enquoted.stripCommas_eq,
          ih (.inl rfl) (hinside.quoted (.text [] none) hcs)]
      · cases houter
  | @comma t d hshuts hd ih =>
      have hcomma : Comments.stripCommas false (',' :: d) = Comments.stripCommas false d := by
        rw [Comments.stripCommas.eq_def]
        simp [hd.closesNext hshuts]
      rw [hcomma, ih hm ht]
  | line _ hallowed => cases hallowed
  | block _ hallowed => cases hallowed
  | lastLine _ hallowed => cases hallowed
  | lastBlock _ hallowed => cases hallowed

end Comments

/-- A text is accepted as a data text with comments just if it is read as some data text, and it
has the value of that. -/
theorem Value.ofCommentedText?_iff {s : String} {v : Value} : ofCommentedText? s = some v ↔
    ∃ t : String, ofText? t = some v ∧ Comments.Loose true t.toList s.toList := by
  constructor
  · intro h
    have hread : ofText? (String.ofList (Comments.bare s.toList)) = some v := by
      rw [ofText?, String.toList_ofList]
      exact h
    have hends : Token.Ends .between (Comments.bare s.toList) := .of_read h
    refine ⟨_, hread, ?_⟩
    rw [String.toList_ofList]
    exact Comments.read_all s.toList .between (.inl rfl) hends
  · rintro ⟨t, hread, hloose⟩
    rw [ofCommentedText?, hloose.strip.stripCommas (.inl rfl) (.of_read hread)]
    exact hread

end ProxyFleet
