import ProxyFleet.Proofs.Value.Loose

/-!
# When what is accepted is a data text with comments

What is accepted is a data text with comments between its tokens and single commas behind
last items, unless one of three things is in it: a number or a word that comments tear
apart (`Comments.Torn`), a block comment that is not closed (`Comments.Unclosed`), or a
comma in brackets that no item stands before (`Comments.Lone`).

Each of them is told by what stands before it and what comes next. `Comments.Upto` is what
can stand before: whole tokens, white space and whole comments, one behind the other, so
that what comes next is not within quotes or a comment.
-/

namespace ProxyFleet

namespace Comments

open Token

variable {item comments : Bool} {c : Char} {a cs t d : List Char} {done : List Token}

/-! ## The three faults -/

/-- The beginning of a text, up to where something can come next that is not within quotes or a
comment; and whether an item ends there, white space and comments apart. -/
inductive Upto : Bool → List Char → Prop
  | start : Upto false []
  | gap {item : Bool} {a : List Char} {c : Char} : isGap c = true → Upto item a →
      Upto item (a ++ [c])
  | mark {item : Bool} {a : List Char} {c : Char} {m : Token} : ofMark? c = some m → Upto item a →
      Upto (c = ']' || c = '}') (a ++ [c])
  | scalar {item : Bool} {a : List Char} {c : Char} : isScalarPart c = true → Upto item a →
      Upto true (a ++ [c])
  | quoted (cs : List Char) {item : Bool} {a : List Char} : Quotable cs → Upto item a →
      Upto true (a ++ '"' :: (cs ++ ['"']))
  | line (cs : List Char) {item : Bool} {a : List Char} : '\n' ∉ cs → Upto item a →
      Upto item (a ++ '/' :: '/' :: (cs ++ ['\n']))
  | block (cs : List Char) {item : Bool} {a : List Char} : ¬['*', '/'] <:+: cs → Upto item a →
      Upto item (a ++ '/' :: '*' :: (cs ++ ['*', '/']))

/-- A text that begins with a block comment or more, and goes on with a character of a number or a
word. -/
inductive Resumes : List Char → Prop
  | scalar (cs : List Char) {c : Char} {d : List Char} : ¬['*', '/'] <:+: cs →
      isScalarPart c = true → Resumes ('/' :: '*' :: (cs ++ '*' :: '/' :: c :: d))
  | block (cs : List Char) {d : List Char} : ¬['*', '/'] <:+: cs → Resumes d →
      Resumes ('/' :: '*' :: (cs ++ '*' :: '/' :: d))

/-- With its comments taken out, two tokens of the text are one. -/
def Torn (s : List Char) : Prop := ∃ item a c d,
  Upto item a ∧ isScalarPart c = true ∧ Resumes d ∧ s = a ++ c :: d

/-- The text ends within a block comment. -/
def Unclosed (s : List Char) : Prop := ∃ item a cs,
  Upto item a ∧ ¬['*', '/'] <:+: cs ∧ s = a ++ '/' :: '*' :: cs

/-- Before a closing bracket stands a comma, and no item before that. -/
def Lone (s : List Char) : Prop := ∃ a d, Upto false a ∧ Shuts d ∧ s = a ++ ',' :: d

/-! ## Comments end in one place -/

theorem line_unique {cs' d' : List Char} (hcs : '\n' ∉ cs) (hcs' : '\n' ∉ cs')
    (h : cs ++ '\n' :: d = cs' ++ '\n' :: d') : cs = cs' ∧ d = d' := by
  induction cs generalizing cs' with
  | nil =>
      cases cs' with
      | nil => exact ⟨rfl, (List.cons.inj h).2⟩
      | cons c cs' =>
          obtain ⟨rfl, -⟩ := List.cons.inj h
          simp at hcs'
  | cons c cs ih =>
      cases cs' with
      | nil =>
          obtain ⟨rfl, -⟩ := List.cons.inj h
          simp at hcs
      | cons c' cs' =>
          obtain ⟨rfl, hrest⟩ := List.cons.inj h
          obtain ⟨rfl, rfl⟩ := ih (fun hmem => hcs (List.mem_cons_of_mem _ hmem))
            (fun hmem => hcs' (List.mem_cons_of_mem _ hmem)) hrest
          exact ⟨rfl, rfl⟩

theorem block_unique {cs' d' : List Char} (hcs : ¬['*', '/'] <:+: cs) (hcs' : ¬['*', '/'] <:+: cs')
    (h : cs ++ '*' :: '/' :: d = cs' ++ '*' :: '/' :: d') : cs = cs' ∧ d = d' := by
  -- a comment that is closed at once cannot go on
  have hfirst : ∀ {c : Char} {cs d d' : List Char}, ¬['*', '/'] <:+: c :: cs →
      '*' :: '/' :: d ≠ c :: cs ++ '*' :: '/' :: d' := by
    intro c cs d d' hcs h
    obtain ⟨rfl, hrest⟩ := List.cons.inj h
    cases cs with
    | nil => cases hrest
    | cons c cs =>
        cases hrest
        exact hcs ⟨[], cs, rfl⟩
  induction cs generalizing cs' with
  | nil =>
      cases cs' with
      | nil => exact ⟨rfl, by simpa using h⟩
      | cons c cs' => exact absurd h (hfirst hcs')
  | cons c cs ih =>
      cases cs' with
      | nil => exact absurd h.symm (hfirst hcs)
      | cons c' cs' =>
          obtain ⟨rfl, hrest⟩ := List.cons.inj h
          obtain ⟨rfl, rfl⟩ := ih (fun hi => hcs (List.infix_cons hi))
            (fun hi => hcs' (List.infix_cons hi)) hrest
          exact ⟨rfl, rfl⟩

theorem quoted_unique {cs' d' : List Char} (hcs : Quotable cs) (hcs' : Quotable cs')
    (h : cs ++ '"' :: d = cs' ++ '"' :: d') : cs = cs' ∧ d = d' := by
  induction hcs generalizing cs' with
  | nil =>
      cases hcs' with
      | nil => exact ⟨rfl, (List.cons.inj h).2⟩
      | char hquote => exact absurd (List.cons.inj h).1.symm hquote
      | escape => cases (List.cons.inj h).1
  | char hquote hbackslash _ ih =>
      cases hcs' with
      | nil => exact absurd (List.cons.inj h).1 hquote
      | char _ _ hcs' =>
          obtain ⟨rfl, hrest⟩ := List.cons.inj h
          obtain ⟨rfl, rfl⟩ := ih hcs' hrest
          exact ⟨rfl, rfl⟩
      | escape => exact absurd (List.cons.inj h).1 hbackslash
  | escape _ ih =>
      cases hcs' with
      | nil => cases (List.cons.inj h).1
      | char _ hbackslash => exact absurd (List.cons.inj h).1.symm hbackslash
      | escape hcs' =>
          obtain ⟨rfl, hrest⟩ := List.cons.inj (List.cons.inj h).2
          obtain ⟨rfl, rfl⟩ := ih hcs' hrest
          exact ⟨rfl, rfl⟩

/-! ## Without a fault -/

theorem Loose.of_outer (h : Loose comments t (c :: d)) (hc : isOuter c = true) (hcomma : c ≠ ',') :
    ∃ t', t = c :: t' ∧ Loose comments t' d := by
  cases h with
  | outer _ h => exact ⟨_, rfl, h⟩
  | comma => exact absurd rfl hcomma
  | quoted | line | block | lastLine | lastBlock => cases hc

theorem Loose.of_line (hcs : '\n' ∉ cs)
    (h : Loose comments t ('/' :: '/' :: (cs ++ '\n' :: d))) :
    ∃ t', t = '\n' :: t' ∧ Loose comments t' d := by
  generalize hs : '/' :: '/' :: (cs ++ '\n' :: d) = s at h
  cases h with
  | outer hc =>
      cases hs
      cases hc
  | line cs' _ hcs' h =>
      obtain ⟨rfl, rfl⟩ := line_unique hcs hcs' (by simpa using hs)
      exact ⟨_, rfl, h⟩
  | lastLine cs' _ hcs' =>
      cases hs
      simp at hcs'
  | done | quoted | comma | block | lastBlock => cases hs

theorem Loose.of_block (hcs : ¬['*', '/'] <:+: cs)
    (h : Loose comments t ('/' :: '*' :: (cs ++ '*' :: '/' :: d))) : Loose comments t d := by
  generalize hs : '/' :: '*' :: (cs ++ '*' :: '/' :: d) = s at h
  cases h with
  | outer hc =>
      cases hs
      cases hc
  | block cs' _ hcs' h =>
      obtain ⟨rfl, rfl⟩ := block_unique hcs hcs' (by simpa using hs)
      exact h
  | lastBlock cs' _ hcs' =>
      cases hs
      exact absurd ⟨cs, d, by simp⟩ hcs'
  | done | quoted | comma | line | lastLine => cases hs

theorem outer_gap (h : isGap c = true) : isOuter c = true := by simp [isOuter, h]

theorem outer_scalar (h : isScalarPart c = true) : isOuter c = true := by simp [isOuter, h]

/-- What a text goes on with is a closing bracket, comments apart, if what it is read as goes on
with one. -/
theorem Loose.closes_of_shuts (h : Loose comments t d) (hd : Shuts d) : Closes t := by
  induction hd generalizing t with
  | @bracket b d hb =>
      have hb' : isOuter b = true ∧ b ≠ ',' := by rcases hb with rfl | rfl <;> decide
      obtain ⟨t, rfl, -⟩ := h.of_outer hb'.1 hb'.2
      exact .bracket hb
  | gap hc _ ih =>
      obtain ⟨t, rfl, hrest⟩ := h.of_outer (outer_gap hc) (gap_ne hc rfl)
      exact .gap hc (ih hrest)
  | line cs hcs _ ih =>
      obtain ⟨t, rfl, hrest⟩ := h.of_line hcs
      exact .gap rfl (ih hrest)
  | block cs hcs _ ih => exact ih (h.of_block hcs)

theorem Loose.scalars (hcs : ∀ c ∈ cs, isScalarPart c = true) (h : Loose comments t (cs ++ d)) :
    ∃ t', t = cs ++ t' ∧ Loose comments t' d := by
  induction cs generalizing t with
  | nil => exact ⟨t, rfl, h⟩
  | cons c cs ih =>
      have hc := hcs c List.mem_cons_self
      obtain ⟨t, rfl, hrest⟩ := h.of_outer (outer_scalar hc) (scalar_ne hc rfl)
      obtain ⟨t', rfl, hbehind⟩ := ih (fun c hc => hcs c (List.mem_cons_of_mem _ hc)) hrest
      exact ⟨t', rfl, hbehind⟩

theorem Closes.not_scalar (h : Closes (c :: t)) : isScalarPart c = false := by
  cases h with
  | bracket hb => rcases hb with rfl | rfl <;> rfl
  | gap hc => exact isScalarPart_gap hc

/-- If a text is read as one that goes on with a character of a number or a word, that character
comes next, or block comments that it stands behind. -/
theorem Loose.resumes (h : Loose comments (c :: t) d) (hc : isScalarPart c = true) :
    (∃ d', d = c :: d') ∨ Resumes d := by
  generalize hs : c :: t = s at h
  induction h with
  | done => cases hs
  | outer _ h =>
      cases hs
      exact .inl ⟨_, rfl⟩
  | quoted =>
      cases hs
      cases hc
  | comma hd h _ =>
      have hcloses := h.closes_of_shuts hd
      rw [← hs] at hcloses
      simp [hcloses.not_scalar] at hc
  | line =>
      cases hs
      cases hc
  | block cs _ hcs _ ih =>
      obtain ⟨d, rfl⟩ | hd := ih hs
      · exact .inr (.scalar cs hcs hc)
      · exact .inr (.block cs hcs hd)
  | lastLine => cases hs
  | lastBlock => cases hs

/-- Behind a run of such characters there is none more to be read, unless comments tear it. -/
theorem Loose.delimited (h : Loose comments t d) (hd : Delimited d) : Resumes d ∨ Delimited t := by
  cases t with
  | nil => exact .inr .nil
  | cons c t =>
      by_cases hc : isScalarPart c = true
      · obtain ⟨d, rfl⟩ | hresumes := h.resumes hc
        · simp [delimited_cons.1 hd] at hc
        · exact .inl hresumes
      · exact .inr (delimited_cons.2 (by simpa using hc))

theorem Upto.scalars (hcs : ∀ c ∈ cs, isScalarPart c = true) (h : Upto item a) :
    ∃ item', Upto item' (a ++ cs) := by
  induction cs generalizing item a with
  | nil => exact ⟨item, by simpa using h⟩
  | cons c cs ih =>
      obtain ⟨item', h⟩ := ih (fun c hc => hcs c (List.mem_cons_of_mem _ hc))
        (h.scalar (hcs c List.mem_cons_self))
      exact ⟨item', by simpa using h⟩

/-- A run of such characters that comments do not tear is one token of what is read. -/
theorem Loose.scalar_token {rest : List Char} (hne : cs ≠ [])
    (hcs : ∀ c ∈ cs, isScalarPart c = true) (hrest : Delimited rest)
    (h : Loose comments t (cs ++ rest)) (ha : Upto item a)
    (htorn : ¬Torn (a ++ (cs ++ rest))) :
    Upto true (a ++ cs) ∧ ∃ t', t = cs ++ t' ∧ Delimited t' ∧ Loose comments t' rest := by
  obtain ⟨t', rfl, hloose⟩ := h.scalars hcs
  obtain ⟨before, last, rfl⟩ := (List.eq_nil_or_concat cs).resolve_left hne
  simp only [List.concat_eq_append, List.forall_mem_append, List.forall_mem_singleton] at hcs
  obtain ⟨item', ha⟩ := ha.scalars hcs.1
  refine ⟨by simpa using ha.scalar hcs.2, t', rfl, ?_, hloose⟩
  rcases hloose.delimited hrest with hresumes | ht
  · exact absurd ⟨item', _, last, rest, ha, hcs.2, hresumes, by simp⟩ htorn
  · exact ht

/-- A text that has none of the faults is a decoration of what it is read as. -/
theorem Loose.decorated (h : Loose true t d) (ha : Upto item a)
    (hsound : ¬(Torn (a ++ d) ∨ Unclosed (a ++ d) ∨ Lone (a ++ d))) :
    Decorated true true item t d := by
  induction hlength : d.length using Nat.strongRecOn generalizing item a t d with
  | ind n ih =>
      subst hlength
      -- what stands behind a piece of the text is a decoration too
      have hbehind : ∀ (piece : List Char) {t' d' : List Char} {item' : Bool}, piece ≠ [] →
          d = piece ++ d' → Loose true t' d' → Upto item' (a ++ piece) →
          Decorated true true item' t' d' := by
        intro piece t' d' item' hne hd h' ha'
        have hlength : 0 < piece.length := List.length_pos_iff.2 hne
        refine ih d'.length (by rw [hd, List.length_append]; omega) h' ha' ?_ rfl
        rwa [List.append_assoc, ← hd]
      obtain ⟨htorn, hclosed, hlone⟩ := by simpa only [not_or] using hsound
      cases h with
      | done => exact .done
      | @outer c t d hc h =>
          rcases outer_cases hc with hgap | ⟨mark, hmark⟩ | hscalar
          · exact .gap hgap (hbehind [c] (by simp) rfl h (ha.gap hgap))
          · exact .mark hmark (hbehind [c] (by simp) rfl h (ha.mark hmark))
          · obtain ⟨cs, rest, rfl, hcs, hrest⟩ := scalar_run d
            have hall : ∀ d ∈ c :: cs, isScalarPart d = true :=
              List.forall_mem_cons.2 ⟨hscalar, hcs⟩
            obtain ⟨ha', t', ht, hdelimited, hloose⟩ := Loose.scalar_token (List.cons_ne_nil c cs)
              hall hrest (.outer hc h) ha htorn
            rw [ht]
            exact .scalar (c :: cs) (by simp) hall hdelimited
              (hbehind (c :: cs) (by simp) rfl hloose ha')
      | quoted cs hcs h => exact .quoted cs hcs (hbehind _ (by simp) rfl h (ha.quoted cs hcs))
      | @comma t d hshuts h =>
          cases item with
          | false => exact absurd ⟨a, d, ha, hshuts, rfl⟩ hlone
          | true =>
              have ha' : Upto false (a ++ [',']) := ha.mark (c := ',') rfl
              exact .comma rfl (h.closes_of_shuts hshuts) (hbehind [','] (by simp) rfl h ha')
      | @line cs t d _ hcs h =>
          refine .line cs rfl hcs (fun c hc => (Option.some.inj hc).symm) (.gap rfl ?_)
          exact hbehind ('/' :: '/' :: (cs ++ ['\n'])) (by simp) (by simp) h (ha.line cs hcs)
      | @block cs t d _ hcs h =>
          refine .block cs rfl hcs ?_
          exact hbehind ('/' :: '*' :: (cs ++ ['*', '/'])) (by simp) (by simp) h (ha.block cs hcs)
      | lastLine cs _ hcs =>
          rw [← List.append_nil cs]
          exact .line cs rfl hcs nofun .done
      | lastBlock cs _ hcs => exact absurd ⟨item, a, cs, ha, hcs, rfl⟩ hclosed

/-! ## With a fault -/

variable {commas : Bool}

theorem scalar_head {d' : List Char} (hne : cs ≠ []) (hcs : ∀ c ∈ cs, isScalarPart c = true)
    (h : c :: d = cs ++ d') : isScalarPart c = true := by
  obtain ⟨c', cs, rfl⟩ := List.exists_cons_of_ne_nil hne
  obtain ⟨rfl, -⟩ := List.cons.inj h
  exact hcs c List.mem_cons_self

theorem Decorated.of_gap (h : Decorated comments commas item t (c :: d)) (hc : isGap c = true) :
    Decorated comments commas item t d ∨
      ∃ t', t = c :: t' ∧ Decorated comments commas item t' d := by
  generalize hs : c :: d = s at h
  cases h with
  | gap _ h =>
      cases hs
      exact .inr ⟨_, rfl, h⟩
  | space _ h =>
      cases hs
      exact .inl h
  | mark hmark =>
      cases hs
      cases (isBlank_gap hc).symm.trans (isBlank_mark hmark)
  | scalar cs hne hcs => cases (isScalarPart_gap hc).symm.trans (scalar_head hne hcs hs)
  | quoted | comma | line | block =>
      cases hs
      cases hc
  | done => cases hs

theorem Decorated.of_mark {m : Token} (h : Decorated comments commas item t (c :: d))
    (hc : ofMark? c = some m) : ∃ t', Decorated comments commas (c = ']' || c = '}') t' d ∧
      (t = c :: t' ∨ t = t' ∧ c = ',' ∧ item = true) := by
  generalize hs : c :: d = s at h
  cases h with
  | gap hgap | space hgap =>
      cases hs
      cases (isBlank_gap hgap).symm.trans (isBlank_mark hc)
  | mark _ h =>
      cases hs
      exact ⟨_, h, .inl rfl⟩
  | scalar cs hne hcs => cases (isScalarPart_mark hc).symm.trans (scalar_head hne hcs hs)
  | comma _ _ h =>
      cases hs
      exact ⟨_, h, .inr ⟨rfl, rfl, rfl⟩⟩
  | quoted | line | block =>
      cases hs
      cases hc
  | done => cases hs

theorem Decorated.of_quoted (hcs : Quotable cs)
    (h : Decorated comments commas item t ('"' :: (cs ++ ['"']) ++ d)) :
    ∃ t', t = '"' :: (cs ++ ['"']) ++ t' ∧ Decorated comments commas true t' d := by
  generalize hs : '"' :: (cs ++ ['"']) ++ d = s at h
  cases h with
  | quoted cs' hcs' h =>
      obtain ⟨rfl, rfl⟩ := quoted_unique hcs hcs' (by simpa using hs)
      exact ⟨_, rfl, h⟩
  | gap hc | mark hc | space hc =>
      cases hs
      cases hc
  | scalar cs hne hcs => cases scalar_head hne hcs hs
  | done | comma | line | block => cases hs

theorem Decorated.of_scalar (h : Decorated comments commas item t (c :: d))
    (hc : isScalarPart c = true) : ∃ cs t' d', (∀ c ∈ cs, isScalarPart c = true) ∧ Delimited t' ∧
      t = c :: (cs ++ t') ∧ d = cs ++ d' ∧ Decorated comments commas true t' d' := by
  generalize hs : c :: d = s at h
  cases h with
  | gap hgap | space hgap =>
      cases hs
      cases hc.symm.trans (isScalarPart_gap hgap)
  | mark hmark =>
      cases hs
      cases hc.symm.trans (isScalarPart_mark hmark)
  | scalar cs hne hcs ht h =>
      obtain ⟨c, cs, rfl⟩ := List.exists_cons_of_ne_nil hne
      cases hs
      exact ⟨cs, _, _, fun c hc => hcs c (List.mem_cons_of_mem _ hc), ht, rfl, rfl, h⟩
  | quoted | comma | line | block =>
      cases hs
      cases hc
  | done => cases hs

theorem Decorated.of_line (hcs : '\n' ∉ cs)
    (h : Decorated comments commas item t ('/' :: '/' :: (cs ++ '\n' :: d))) :
    Decorated comments commas item t ('\n' :: d) := by
  generalize hs : '/' :: '/' :: (cs ++ '\n' :: d) = s at h
  cases h with
  | gap hc | mark hc | space hc =>
      cases hs
      cases hc
  | scalar cs hne hcs => cases scalar_head hne hcs hs
  | @line _ cs' t d' _ hcs' hd' h =>
      cases d' with
      | nil =>
          rw [List.append_nil] at hs
          cases hs
          simp at hcs'
      | cons c d' =>
          obtain rfl : c = '\n' := hd' c rfl
          obtain ⟨rfl, rfl⟩ := line_unique hcs hcs' (by simpa using hs)
          exact h
  | done | quoted | comma | block => cases hs

/-- A block comment that text goes on with is closed. -/
theorem Decorated.of_block_mark (h : Decorated comments commas item t ('/' :: '*' :: d)) :
    ∃ cs d', ¬['*', '/'] <:+: cs ∧ d = cs ++ '*' :: '/' :: d' ∧
      Decorated comments commas item t d' := by
  generalize hs : '/' :: '*' :: d = s at h
  cases h with
  | gap hc | mark hc | space hc =>
      cases hs
      cases hc
  | scalar cs hne hcs => cases scalar_head hne hcs hs
  | block cs _ hcs h =>
      cases hs
      exact ⟨cs, _, hcs, rfl, h⟩
  | done | quoted | comma | line => cases hs

theorem Decorated.of_block (hcs : ¬['*', '/'] <:+: cs)
    (h : Decorated comments commas item t ('/' :: '*' :: (cs ++ '*' :: '/' :: d))) :
    Decorated comments commas item t d := by
  obtain ⟨cs', d', hcs', hs, h⟩ := h.of_block_mark
  obtain ⟨rfl, rfl⟩ := block_unique hcs hcs' hs
  exact h

/-- A point of a decorated text that is not within quotes or a comment: it is between two of its
pieces or within a run of the characters of a number or a word. -/
inductive Point : Bool → List Char → Prop
  | between {item : Bool} {done : List Token} {t d : List Char} : Tidy done t →
      Decorated true true item t d → Point item d
  | inside (cs : List Char) {done : List Token} {t d : List Char} :
      (∀ c ∈ cs, isScalarPart c = true) → Delimited t → Tidy done t →
        Decorated true true true t d → Point true (cs ++ d)

theorem Point.of_not_scalar (h : Point item (c :: d)) (hc : isScalarPart c = false) :
    ∃ done t, Tidy done t ∧ Decorated true true item t (c :: d) := by
  generalize hs : c :: d = s at h
  cases h with
  | between htidy h => exact ⟨_, _, htidy, h⟩
  | inside cs hcs _ htidy h =>
      cases cs with
      | nil => exact ⟨_, _, htidy, h⟩
      | cons c cs =>
          cases hs
          simp [hc] at hcs

theorem Point.of_scalar (h : Point item (c :: d)) (hc : isScalarPart c = true) :
    ∃ cs done t d', (∀ c ∈ cs, isScalarPart c = true) ∧ Delimited t ∧ Tidy done t ∧
      d = cs ++ d' ∧ Decorated true true true t d' := by
  have hbetween : ∀ {item : Bool} {done : List Token} {t : List Char}, Tidy done t →
      Decorated true true item t (c :: d) →
      ∃ cs done t d', (∀ c ∈ cs, isScalarPart c = true) ∧ Delimited t ∧ Tidy done t ∧
        d = cs ++ d' ∧ Decorated true true true t d' := by
    intro item done t htidy h
    obtain ⟨cs, t', d', hcs, ht', rfl, rfl, hrest⟩ := h.of_scalar hc
    have hall : ∀ d ∈ c :: cs, isScalarPart d = true := List.forall_mem_cons.2 ⟨hc, hcs⟩
    obtain ⟨done', htidy'⟩ := Tidy.scalar (List.cons_ne_nil c cs) hall ht' htidy
    exact ⟨cs, done', t', d', hcs, ht', htidy', rfl, hrest⟩
  generalize hs : c :: d = s at h
  cases h with
  | between htidy h => exact hbetween htidy (hs ▸ h)
  | inside cs hcs ht htidy h =>
      cases cs with
      | nil =>
          rw [List.nil_append] at hs
          exact hbetween htidy (hs ▸ h)
      | cons c cs =>
          cases hs
          exact ⟨cs, _, _, _, fun c hc => hcs c (List.mem_cons_of_mem _ hc), ht, htidy, rfl, h⟩

/-- What is whole before a point is whole in the text that was decorated. -/
theorem Upto.point (ha : Upto item a) (htidy : Tidy done t)
    (h : Decorated true true false t (a ++ d)) : Point item d := by
  induction ha generalizing d with
  | start => exact .between htidy h
  | gap hc _ ih =>
      obtain ⟨done', t', htidy', h'⟩ := (ih (by simpa using h)).of_not_scalar (isScalarPart_gap hc)
      obtain hrest | ⟨t', rfl, hrest⟩ := h'.of_gap hc
      · exact .between htidy' hrest
      · exact .between (htidy'.of_char (closed_gap hc)) hrest
  | mark hc _ ih =>
      obtain ⟨done', t', htidy', h'⟩ := (ih (by simpa using h)).of_not_scalar (isScalarPart_mark hc)
      obtain ⟨t', hrest, rfl | ⟨rfl, -⟩⟩ := h'.of_mark hc
      · exact .between (htidy'.of_char (closed_mark hc)) hrest
      · exact .between htidy' hrest
  | scalar hc _ ih =>
      obtain ⟨cs, done', t', d', hcs, ht', htidy', rfl, h'⟩ := (ih (by simpa using h)).of_scalar hc
      exact .inside cs hcs ht' htidy' h'
  | quoted cs hcs _ ih =>
      obtain ⟨done', t', htidy', h'⟩ := (ih (by simpa using h)).of_not_scalar rfl
      obtain ⟨t', rfl, hrest⟩ := Decorated.of_quoted hcs (by simpa using h')
      obtain ⟨done', hbehind⟩ := htidy'.quoted hcs
      exact .between hbehind hrest
  | line cs hcs _ ih =>
      obtain ⟨done', t', htidy', h'⟩ := (ih (by simpa using h)).of_not_scalar rfl
      obtain hrest | ⟨t', rfl, hrest⟩ := (h'.of_line hcs).of_gap rfl
      · exact .between htidy' hrest
      · exact .between (htidy'.of_char (closed_gap rfl)) hrest
  | block cs hcs _ ih =>
      obtain ⟨done', t', htidy', h'⟩ := (ih (by simpa using h)).of_not_scalar rfl
      exact .between htidy' (h'.of_block hcs)

theorem Resumes.head (h : Resumes d) : d.head? = some '/' := by cases h <;> rfl

/-- Comments do not tear what is delimited. -/
theorem Decorated.not_resumes (h : Decorated comments commas item t d) (ht : Delimited t) :
    ¬Resumes d := by
  intro hd
  induction hd with
  | scalar cs hcs hc =>
      obtain ⟨_, _, _, -, -, rfl, -⟩ := (h.of_block hcs).of_scalar hc
      simp [delimited_cons.1 ht] at hc
  | block cs hcs _ ih => exact ih (h.of_block hcs)

theorem Decorated.closes_of_shuts (h : Decorated comments commas item t d) (hd : Shuts d) :
    Closes t := by
  induction hd generalizing t with
  | @bracket b d hb =>
      obtain ⟨mark, hmark⟩ : ∃ mark, ofMark? b = some mark := by
        rcases hb with rfl | rfl <;> exact ⟨_, rfl⟩
      obtain ⟨t', -, rfl | ⟨-, rfl, -⟩⟩ := h.of_mark hmark
      · exact .bracket hb
      · rcases hb with hb | hb <;> cases hb
  | gap hc _ ih =>
      obtain hrest | ⟨t', rfl, hrest⟩ := h.of_gap hc
      · exact ih hrest
      · exact .gap hc (ih hrest)
  | line cs hcs _ ih =>
      obtain hrest | ⟨t', rfl, hrest⟩ := (h.of_line hcs).of_gap rfl
      · exact ih hrest
      · exact .gap rfl (ih hrest)
  | block cs hcs _ ih => exact ih (h.of_block hcs)

variable {s : List Char}

theorem Decorated.not_torn (htidy : Tidy done t) (h : Decorated true true false t s) :
    ¬Torn s := by
  rintro ⟨item, a, c, d, ha, hc, hd, rfl⟩
  obtain ⟨cs, _, t', d', hcs, ht, -, rfl, hrest⟩ := (ha.point htidy h).of_scalar hc
  cases cs with
  | nil => exact hrest.not_resumes ht hd
  | cons c cs =>
      have hslash : c = '/' := Option.some.inj hd.head
      simp [hslash, isScalarPart, continuesNumber] at hcs

theorem Decorated.not_unclosed (htidy : Tidy done t) (h : Decorated true true false t s) :
    ¬Unclosed s := by
  rintro ⟨item, a, cs, ha, hcs, rfl⟩
  obtain ⟨_, t', -, hrest⟩ := (ha.point htidy h).of_not_scalar rfl
  obtain ⟨cs', d', -, rfl, -⟩ := hrest.of_block_mark
  exact hcs ⟨cs', d', by simp⟩

theorem Decorated.not_lone (htidy : Tidy done t) (h : Decorated true true false t s) :
    ¬Lone s := by
  rintro ⟨a, d, ha, hd, rfl⟩
  obtain ⟨_, t', htidy', hcomma⟩ := (ha.point htidy h).of_not_scalar rfl
  obtain ⟨t', hrest, rfl | ⟨-, -, hitem⟩⟩ := hcomma.of_mark (m := .comma) rfl
  · exact (htidy'.of_char (closed_mark rfl)).not_closes (hrest.closes_of_shuts hd)
  · cases hitem

theorem Tidy.of_text {text : String} {v : Value} (hv : Value.ofText? text = some v) :
    Tidy [] text.toList := by
  obtain ⟨ts, hscan, hread⟩ := Option.bind_eq_some_iff.1 hv
  rw [Token.scan_eq_after] at hscan
  obtain ⟨us, hafter, rfl⟩ := Option.map_eq_some_iff.1 hscan
  exact ⟨us, hafter, Reader.ofTokens?_closing hread⟩

/-- A decorated text has none of the faults. -/
theorem Decorated.not_faulty {text : String} {v : Value} (hv : Value.ofText? text = some v)
    (h : Decorated true true false text.toList s) : ¬(Torn s ∨ Unclosed s ∨ Lone s) := by
  have htidy := Tidy.of_text hv
  rintro (htorn | hunclosed | hlone)
  · exact h.not_torn htidy htorn
  · exact h.not_unclosed htidy hunclosed
  · exact h.not_lone htidy hlone

end Comments

namespace Value

open Comments

/-- Just the texts are accepted that are read, with the liberties, as a data text, and they have its
value. Such a text is a data text with comments between its tokens and with single commas behind
last items, unless it has one of the three faults. -/
theorem ofCommentedText?_sound {s : String} {v : Value} :
    (ofCommentedText? s = some v ↔
      ∃ t : String, ofText? t = some v ∧ Loose true t.toList s.toList) ∧
    (ofCommentedText? s = some v →
      ((∃ t : String, ofText? t = some v ∧ Decorated true true false t.toList s.toList) ↔
        ¬(Torn s.toList ∨ Unclosed s.toList ∨ Lone s.toList))) := by
  refine ⟨ofCommentedText?_iff, fun h => ⟨?_, fun hsound => ?_⟩⟩
  · rintro ⟨t, ht, hdecorated⟩
    exact hdecorated.not_faulty ht
  · obtain ⟨t, ht, hloose⟩ := ofCommentedText?_iff.1 h
    exact ⟨t, ht, hloose.decorated .start hsound⟩

/-- A comma that no item stands before, and a comment that is not closed. -/
theorem ofCommentedText?_sound_lone :
    ofCommentedText? "[,]/*" = some (.arr []) ∧
      (∃ t : String, ofText? t = some (.arr []) ∧ Loose true t.toList "[,]/*".toList) ∧
      ¬∃ t : String, ofText? t = some (.arr []) ∧
        Decorated true true false t.toList "[,]/*".toList := by
  have h : ofCommentedText? "[,]/*" = some (.arr []) := by rfl
  have hopen : Upto false ['['] := Upto.start.mark (c := '[') rfl
  refine ⟨h, ofCommentedText?_sound.1.1 h, fun hproper => ?_⟩
  exact (ofCommentedText?_sound.2 h).1 hproper
    (.inr (.inr ⟨['['], "]/*".toList, hopen, .bracket (.inl rfl), rfl⟩))

/-- A comment that joins two digits to one number, a comma that no item stands before and a comment
that is not closed are accepted, and none of these texts is a data text with comments. -/
theorem accepted_faulty :
    (ofCommentedText? "[8/**/0]" = ofText? "[80]" ∧ (ofText? "[80]").isSome = true ∧
      ofCommentedText? "[,]" = some (.arr []) ∧ ofCommentedText? "[]/*" = some (.arr [])) ∧
    ∀ s ∈ ["[8/**/0]", "[,]", "[]/*"], ¬∃ (t : String) (v : Value),
      ofText? t = some v ∧ Decorated true true false t.toList s.toList := by
  have hjoined : bare "[8/**/0]".toList = "[80]".toList := by decide +kernel
  have hread : ofCommentedText? "[8/**/0]" = ofText? "[80]" := by
    rw [ofText?, ← hjoined]
    rfl
  refine ⟨⟨hread, by decide +kernel, by rfl, by rfl⟩, fun s hs => ?_⟩
  rintro ⟨t, v, ht, hproper⟩
  refine hproper.not_faulty ht ?_
  have hopen : Upto false ['['] := Upto.start.mark (c := '[') rfl
  rcases List.mem_cons.1 hs with rfl | hs
  · exact .inl ⟨false, ['['], '8', "/**/0]".toList, hopen, rfl, .scalar [] (by decide) rfl, rfl⟩
  rcases List.mem_cons.1 hs with rfl | hs
  · exact .inr (.inr ⟨['['], [']'], hopen, .bracket (.inl rfl), rfl⟩)
  · obtain rfl := List.mem_singleton.1 hs
    have hclose : Upto true "[]".toList := hopen.mark (c := ']') rfl
    exact .inr (.inl ⟨true, "[]".toList, [], hclose, by decide, rfl⟩)

end Value

end ProxyFleet
