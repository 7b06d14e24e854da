import ProxyFleet.Proofs.Value.Decorated

/-!
# Data texts with comments are read as without

Both passes and the scan take a decorated text back to the tokens of the text
(`Value.ofCommentedText?_decorated`). For this the text has to be one that the reader
accepts, which has no comma before a closing bracket.

A text that is scanned at all is a decoration of itself: where it is cut into pieces is
told by the scan, which stops at a quote that is not closed.
-/

namespace ProxyFleet

namespace Reader

/-- No closing bracket is read after a comma. -/
theorem step_closing {s s' : State} {b : Token} (hcomma : step s .comma = some s')
    (hb : b = .closeArray ∨ b = .closeRecord) : step s' b = none := by
  have hexpect : s'.expect = .value ∨ s'.expect = .name := by
    rcases s with ⟨_ | ⟨_ | _ | _, _⟩, _ | _ | _ | _ | _ | _⟩ <;> cases hcomma
    · exact .inl rfl
    · exact .inr rfl
  rcases s' with ⟨stack, expect⟩
  rcases hexpect with h | h <;> cases h <;> rcases hb with rfl | rfl <;> rfl

theorem ofTokens?_closing {ts : List Token} {v : Value} (h : ofTokens? ts = some v) :
    ¬Comments.ClosingComma ts := by
  rintro ⟨us, vs, b, hb, rfl⟩
  obtain ⟨s, hs, -⟩ := Option.bind_eq_some_iff.1 h
  rw [List.foldlM_append] at hs
  obtain ⟨s1, -, hs⟩ := Option.bind_eq_some_iff.1 hs
  rw [List.foldlM_cons] at hs
  obtain ⟨s2, hcomma, hs⟩ := Option.bind_eq_some_iff.1 hs
  rw [List.foldlM_cons, step_closing hcomma hb] at hs
  cases hs

end Reader

namespace Token

variable {c : Char} {cs : List Char} {m : Mode} {done : List Token}

/-- What can stand between two tokens. -/
theorem start_cases {s : Scan} (h : start done c = some s) :
    isGap c = true ∨ (∃ mark, ofMark? c = some mark) ∨ c = '"' ∨ isScalarPart c = true := by
  by_cases hgap : isGap c = true
  · exact .inl hgap
  by_cases hmark : ∃ mark, ofMark? c = some mark
  · exact .inr (.inl hmark)
  by_cases hquote : c = '"'
  · exact .inr (.inr (.inl hquote))
  refine .inr (.inr (.inr ?_))
  have hne : ∀ x mark, ofMark? x = some mark → c ≠ x := by
    rintro x mark hx rfl
    exact hmark ⟨mark, hx⟩
  unfold start at h
  rw [if_neg hgap, if_neg (hne _ _ rfl), if_neg (hne _ _ rfl), if_neg (hne _ _ rfl),
    if_neg (hne _ _ rfl), if_neg (hne _ _ rfl), if_neg (hne _ _ rfl), if_neg hquote] at h
  split at h
  · next hnumber =>
    rcases Bool.or_eq_true_iff.1 hnumber with hc | hc
    · rw [of_decide_eq_true hc]
      rfl
    · simp [isScalarPart, continuesNumber, hc]
  · split at h
    · next hword => simp [isScalarPart, hword]
    · cases h

/-- A quoted text that is scanned to the end of the text is closed. -/
theorem quoted_closes {s : Scan} {ts : List Token} (hend : finish s = some ts) :
    ∀ {cs : List Char} {m : Mode} {done : List Token}, m.Inside →
      cs.foldlM step ⟨m, done⟩ = some s →
      ∃ inner rest, Quotable inner ∧ cs = inner ++ '"' :: rest
  | [], _, _, hm, h => by
      cases h
      cases hm <;> cases hend
  | c :: cs, m, done, hm, h => by
      by_cases hquote : c = '"'
      · exact ⟨[], cs, .nil, by rw [hquote]; rfl⟩
      rw [List.foldlM_cons] at h
      obtain ⟨⟨m1, done1⟩, hstep, hrest⟩ := Option.bind_eq_some_iff.1 h
      by_cases hbackslash : c = '\\'
      · subst hbackslash
        cases cs with
        | nil =>
            -- the text ends behind the backslash
            cases hrest
            cases hm <;> cases hstep
            cases hend
        | cons d cs =>
            rw [List.foldlM_cons] at hrest
            obtain ⟨⟨m2, done2⟩, hescaped, hrest⟩ := Option.bind_eq_some_iff.1 hrest
            obtain ⟨hinside, rfl⟩ := step_escape hm hstep hescaped
            obtain ⟨inner, rest, hinner, rfl⟩ := quoted_closes hend hinside hrest
            exact ⟨'\\' :: d :: inner, rest, .escape hinner, rfl⟩
      · obtain ⟨hinside, rfl⟩ := step_inside hm hquote hbackslash hstep
        obtain ⟨inner, rest, hinner, rfl⟩ := quoted_closes hend hinside hrest
        exact ⟨c :: inner, rest, .char hquote hbackslash hinner, rfl⟩

/-- A text begins with a run of the characters of numbers and words, which can be empty. -/
theorem scalar_run (t : List Char) :
    ∃ cs rest, t = cs ++ rest ∧ (∀ d ∈ cs, isScalarPart d = true) ∧ Delimited rest := by
  induction t with
  | nil => exact ⟨[], [], rfl, nofun, .nil⟩
  | cons c t ih =>
      by_cases hc : isScalarPart c = true
      · obtain ⟨cs, rest, rfl, hcs, hrest⟩ := ih
        exact ⟨c :: cs, rest, rfl, List.forall_mem_cons.2 ⟨hc, hcs⟩, hrest⟩
      · exact ⟨[], c :: t, rfl, nofun, delimited_cons.2 (Bool.eq_false_iff.2 hc)⟩

end Token

namespace Comments

open Token

variable {comments commas item : Bool} {t : List Char} {done ts : List Token}

/-- A text that is scanned is a decoration of itself. -/
theorem Decorated.refl (h : after done t = some ts) : Decorated comments commas item t t := by
  induction hlength : t.length using Nat.strongRecOn generalizing t done item with
  | ind n ih =>
      subst hlength
      cases t with
      | nil => exact .done
      | cons c t =>
          have hshorter : ∀ {cs rest : List Char} {item' : Bool} {done' : List Token}, cs ≠ [] →
              c :: t = cs ++ rest → after done' rest = some ts →
              Decorated comments commas item' rest rest := by
            intro cs rest item' done' hne hsplit hrest
            refine ih _ ?_ hrest rfl
            rw [hsplit, List.length_append]
            have := List.length_pos_iff.2 hne
            omega
          obtain ⟨s, hs, hend⟩ := Option.bind_eq_some_iff.1 h
          rw [List.foldlM_cons] at hs
          obtain ⟨s', hstart, hs⟩ := Option.bind_eq_some_iff.1 hs
          rcases start_cases hstart with hgap | ⟨mark, hmark⟩ | rfl | hscalar
          · have hrest := (closed_gap hgap t done).symm.trans h
            exact .gap hgap (hshorter (List.cons_ne_nil c []) rfl hrest)
          · have hrest := (closed_mark hmark t done).symm.trans h
            exact .mark hmark (hshorter (List.cons_ne_nil c []) rfl hrest)
          · cases hstart
            obtain ⟨inner, rest, hinner, rfl⟩ := quoted_closes hend (.text [] none) hs
            have hsplit : '"' :: (inner ++ '"' :: rest) = '"' :: (inner ++ ['"']) ++ rest := by simp
            rw [hsplit] at h ⊢
            rcases quoted_scanned hinner with hnone | ⟨us, hclosed⟩
            · cases (hnone rest done).symm.trans h
            · exact .quoted inner hinner
                (hshorter (List.cons_ne_nil _ _) hsplit ((hclosed rest done).symm.trans h))
          · obtain ⟨cs, rest, rfl, hcs, hrest⟩ := scalar_run t
            have hall : ∀ d ∈ c :: cs, isScalarPart d = true :=
              List.forall_mem_cons.2 ⟨hscalar, hcs⟩
            rw [← List.cons_append] at h ⊢
            rcases scalar_scanned (List.cons_ne_nil c cs) hall with hnone | ⟨us, hspells⟩
            · cases (hnone rest done hrest).symm.trans h
            · exact .scalar (c :: cs) (List.cons_ne_nil c cs) hall hrest
                (hshorter (List.cons_ne_nil c cs) rfl ((hspells rest done hrest).symm.trans h))

end Comments

namespace Value

variable {text : String} {v : Value}

theorem ofCommentedText?_of_decorated (hv : ofText? text = some v) {decorated : String}
    (h : Comments.Decorated true true false text.toList decorated.toList) :
    ofCommentedText? decorated = some v := by
  obtain ⟨ts, hscan, hread⟩ := Option.bind_eq_some_iff.1 hv
  have hclosing := Reader.ofTokens?_closing hread
  rw [Token.scan_eq_after] at hscan
  obtain ⟨us, hafter, rfl⟩ := Option.map_eq_some_iff.1 hscan
  have htidy : Comments.Tidy [] text.toList := ⟨us, hafter, hclosing⟩
  have hspaced := h.strip.stripCommas htidy false
  rw [ofCommentedText?, ofChars?, Token.scan_eq_after, hspaced.after_eq, hafter]
  exact hread

/-- A data text has the same value when it is read as one with comments, and so has every text
that is the data text with comments, white space and closing commas. -/
theorem ofCommentedText?_decorated (hv : ofText? text = some v) :
    ofCommentedText? text = some v ∧ ∀ decorated : String,
      Comments.Decorated true true false text.toList decorated.toList →
        ofCommentedText? decorated = some v := by
  refine ⟨?_, fun decorated h => ofCommentedText?_of_decorated hv h⟩
  obtain ⟨ts, hscan, -⟩ := Option.bind_eq_some_iff.1 hv
  rw [Token.scan_eq_after] at hscan
  obtain ⟨us, hafter, -⟩ := Option.map_eq_some_iff.1 hscan
  exact ofCommentedText?_of_decorated hv (.refl hafter)

/-- A text with marks of comments, a comma before a bracket and a quote within its quotes. -/
theorem ofCommentedText?_quoted_marks :
    ofText? "[\"/*\\\",]//\",true]" = some (.arr [.str "/*\",]//", .bool true]) ∧
      ofCommentedText? "[\"/*\\\",]//\",true]" = some (.arr [.str "/*\",]//", .bool true]) ∧
      ofCommentedText? "[ // \"\n\"/*\\\",]//\"/*\"*/ ,true ,/* ] */]//" =
        some (.arr [.str "/*\",]//", .bool true]) := by
  have hv : ofText? "[\"/*\\\",]//\",true]" = some (.arr [.str "/*\",]//", .bool true]) := by rfl
  have hquoted : Token.Quotable "/*\\\",]//".toList :=
    .char (by decide) (by decide) <| .char (by decide) (by decide) <| .escape <|
      .char (by decide) (by decide) <| .char (by decide) (by decide) <|
      .char (by decide) (by decide) <| .char (by decide) (by decide) .nil
  have hend : Comments.Decorated true true true "]".toList " ,/* ] */]//".toList :=
    .space rfl <| .comma rfl (.bracket (.inl rfl)) <|
      .block " ] ".toList rfl (by decide) <| .mark rfl <|
      .line [] rfl (by decide) nofun .done
  have hitems : Comments.Decorated true true true ",true]".toList
      "/*\"*/ ,true ,/* ] */]//".toList :=
    .block ['"'] rfl (by decide) <| .space rfl <| .mark rfl <|
      .scalar "true".toList (by decide) (List.all_eq_true.1 rfl) (Token.delimited_cons.2 rfl) hend
  have h : Comments.Decorated true true false "[\"/*\\\",]//\",true]".toList
      "[ // \"\n\"/*\\\",]//\"/*\"*/ ,true ,/* ] */]//".toList := by
    refine .mark rfl <| .space rfl <| .line " \"".toList rfl (by decide) ?_ <|
      .space rfl <| .quoted _ hquoted hitems
    exact fun c hc => (Option.some.inj hc).symm
  obtain ⟨hsame, hall⟩ := ofCommentedText?_decorated hv
  exact ⟨hv, hsame, hall _ h⟩

end Value

end ProxyFleet
