import ProxyFleet.Proofs.Value.Inert

/-!
# Written values are scanned as their tokens

A piece spells its tokens if the scan, coming to it between two tokens, has just
these more behind it. A piece that is `Closed` does so whatever follows. A number
or a word only does so before something that does not continue it (`Spells`),
and that is all that can follow it in a written value: a line break, a comma, a
closing bracket or the end.
-/

namespace ProxyFleet

namespace Token

/-! ## Pieces -/

/-- The tokens of a text that begins between two tokens, after those found before it. -/
def after (done : List Token) (cs : List Char) : Option (List Token) :=
  (cs.foldlM step ⟨.between, done⟩).bind finish

/-- A text that continues neither a number nor a word. -/
def Delimited (cs : List Char) : Prop :=
  ∀ c ∈ cs.head?, continuesNumber c = false ∧ c.isLower = false

/-- A piece with certain tokens, whatever follows. -/
def Closed (cs : List Char) (ts : List Token) : Prop :=
  ∀ rest done, after done (cs ++ rest) = after (ts.reverse ++ done) rest

/-- A piece with certain tokens, if what follows does not continue it. -/
def Spells (cs : List Char) (ts : List Token) : Prop :=
  ∀ rest done, Delimited rest → after done (cs ++ rest) = after (ts.reverse ++ done) rest

theorem Delimited.nil : Delimited [] := fun _ h => nomatch h

theorem Delimited.cons {c : Char} {cs : List Char} (hnumber : continuesNumber c = false)
    (hword : c.isLower = false) : Delimited (c :: cs) := fun d hd => by
  cases hd
  exact ⟨hnumber, hword⟩

theorem Delimited.append {cs ds : List Char} (h1 : Delimited cs) (h2 : Delimited ds) :
    Delimited (cs ++ ds) := by
  cases cs with
  | nil => exact h2
  | cons c cs => exact h1

theorem scan_eq_after (cs : List Char) : scan cs = (after [] cs).map List.reverse := by
  rw [scan, after]
  cases cs.foldlM step ⟨.between, []⟩ <;> rfl

variable {cs ds : List Char} {ts us : List Token}

namespace Closed

theorem spells (h : Closed cs ts) : Spells cs ts := fun rest done _ => h rest done

theorem nil : Closed [] [] := fun _ _ => rfl

theorem append (h1 : Closed cs ts) (h2 : Closed ds us) : Closed (cs ++ ds) (ts ++ us) := by
  intro rest done
  rw [List.append_assoc, h1, h2, List.reverse_append, List.append_assoc]

theorem append_spells (h1 : Closed cs ts) (h2 : Spells ds us) : Spells (cs ++ ds) (ts ++ us) := by
  intro rest done hrest
  rw [List.append_assoc, h1, h2 rest _ hrest, List.reverse_append, List.append_assoc]

/-- A character that is a token, or none. -/
theorem char {c : Char} (h : ∀ done, start done c = some ⟨.between, ts.reverse ++ done⟩) :
    Closed [c] ts := by
  intro rest done
  rw [after, List.singleton_append, List.foldlM_cons]
  change ((start done c).bind _).bind _ = _
  rw [h]
  rfl

theorem gaps (h : ∀ c ∈ cs, c = '\n' ∨ c = ' ') : Closed cs [] := by
  induction cs with
  | nil => exact nil
  | cons c cs ih =>
      have hc : Closed [c] [] := by
        rcases h c List.mem_cons_self with rfl | rfl <;> exact char fun _ => rfl
      exact hc.append (ih fun d hd => h d (List.mem_cons_of_mem c hd))

end Closed

theorem Spells.append (h1 : Spells cs ts) (h2 : Spells ds us) (hds : Delimited ds) :
    Spells (cs ++ ds) (ts ++ us) := by
  intro rest done hrest
  rw [List.append_assoc, h1 _ done (hds.append hrest), h2 rest _ hrest, List.reverse_append,
    List.append_assoc]

/-- Before something that is there and does not continue it, a piece is closed. -/
theorem Spells.append_closed {d : Char} (h1 : Spells cs ts) (h2 : Closed (d :: ds) us)
    (hd : Delimited [d]) : Closed (cs ++ d :: ds) (ts ++ us) := by
  intro rest done
  have hrest : Delimited (d :: ds ++ rest) := hd
  rw [List.append_assoc, h1 _ done hrest, h2, List.reverse_append, List.append_assoc]

theorem Spells.scan (h : Spells cs ts) : scan cs = some ts := by
  have hall := h [] [] .nil
  rw [List.append_nil, List.append_nil] at hall
  rw [scan_eq_after, hall]
  change some ts.reverse.reverse = _
  rw [List.reverse_reverse]

/-! ## Pieces that are scanned on their own

What was found before a piece makes no difference to how the piece is scanned. -/

theorem start_done (done : List Token) (c : Char) :
    start done c = (start [] c).map fun s => ⟨s.mode, s.done ++ done⟩ := by
  unfold start
  simp only [apply_ite (Option.map _), Option.map_some, Option.map_none, List.nil_append,
    List.cons_append]

theorem step_done (m : Mode) (seen done : List Token) (c : Char) :
    step ⟨m, seen ++ done⟩ c = (step ⟨m, seen⟩ c).map fun s => ⟨s.mode, s.done ++ done⟩ := by
  have hstart : ∀ us : List Token, start (us ++ done) c =
      (start us c).map fun s => ⟨s.mode, s.done ++ done⟩ := by
    intro us
    rw [start_done, start_done us, Option.map_map]
    cases start [] c <;> simp
  cases m with
  | between => exact hstart seen
  | number cs =>
      change (if _ then _ else _) = (if _ then _ else _ : Option Scan).map _
      split
      · rfl
      · cases Number.ofLexeme? cs.reverse with
        | none => rfl
        | some n => exact hstart (.scalar (.num n) :: seen)
  | word cs =>
      change (if _ then _ else _) = (if _ then _ else _ : Option Scan).map _
      split
      · rfl
      · cases wordValue? cs.reverse with
        | none => rfl
        | some v => exact hstart (.scalar v :: seen)
  | text cs half =>
      change (if _ then _ else if _ then _ else if _ then _ else _) =
        (if _ then _ else if _ then _ else if _ then _ else _ : Option Scan).map _
      simp only [apply_ite (Option.map _), Option.map_some, Option.map_none, List.cons_append]
  | escape cs half =>
      change (if _ then _ else _) = (if _ then _ else _ : Option Scan).map _
      split
      · rfl
      · cases escaped? c <;> rfl
  | code cs half value left =>
      change Option.map _ (hexDigit? c) = Option.map _ (Option.map _ (hexDigit? c))
      cases hexDigit? c with
      | none => rfl
      | some d =>
          change some (if _ then _ else _) = some _
          split <;> rfl

theorem foldlM_done (cs : List Char) (m : Mode) (seen done : List Token) :
    cs.foldlM step ⟨m, seen ++ done⟩ =
      (cs.foldlM step ⟨m, seen⟩).map fun s => ⟨s.mode, s.done ++ done⟩ := by
  induction cs generalizing m seen with
  | nil => rfl
  | cons c cs ih =>
      rw [List.foldlM_cons, List.foldlM_cons, step_done]
      cases step ⟨m, seen⟩ c with
      | none => rfl
      | some s => exact ih s.mode s.done

/-- A piece that is scanned to its end, where another token could begin. -/
theorem Closed.of_scan (h : cs.foldlM step ⟨.between, []⟩ = some ⟨.between, ts.reverse⟩) :
    Closed cs ts := by
  intro rest done
  have hpiece := foldlM_done cs .between [] done
  rw [h] at hpiece
  rw [after, List.foldlM_append]
  exact congrArg (fun s => (s >>= rest.foldlM step).bind finish) hpiece

/-! ## Words and numbers -/

/-- A word ends before what does not continue it. -/
theorem word_ends (seen : List Char) {rest : List Char} {v : Value}
    (hv : wordValue? seen.reverse = some v) (hrest : Delimited rest) (done : List Token) :
    (rest.foldlM step ⟨.word seen, done⟩).bind finish = after (.scalar v :: done) rest := by
  cases rest with
  | nil =>
      change (wordValue? seen.reverse).map _ = _
      rw [hv]
      rfl
  | cons c rest =>
      rw [after, List.foldlM_cons, List.foldlM_cons]
      have hstep : step ⟨.word seen, done⟩ c = step ⟨.between, .scalar v :: done⟩ c := by
        change (if c.isLower = true then _ else _) = _
        rw [if_neg (by rw [(hrest c rfl).2]; decide), hv]
        rfl
      rw [hstep]

theorem spells_null : Spells "null".toList [.scalar .null] := fun _ done hrest =>
  word_ends "llun".toList rfl hrest done

theorem spells_true : Spells "true".toList [.scalar (.bool true)] := fun _ done hrest =>
  word_ends "eurt".toList rfl hrest done

theorem spells_false : Spells "false".toList [.scalar (.bool false)] := fun _ done hrest =>
  word_ends "eslaf".toList rfl hrest done

/-- A number ends before what does not continue it. -/
theorem number_ends {seen rest : List Char} {n : Number}
    (hn : Number.ofLexeme? seen.reverse = some n) (hrest : Delimited rest) (done : List Token) :
    (rest.foldlM step ⟨.number seen, done⟩).bind finish = after (.scalar (.num n) :: done) rest := by
  cases rest with
  | nil =>
      change (Number.ofLexeme? seen.reverse).map _ = _
      rw [hn]
      rfl
  | cons c rest =>
      rw [after, List.foldlM_cons, List.foldlM_cons]
      have hstep : step ⟨.number seen, done⟩ c = step ⟨.between, .scalar (.num n) :: done⟩ c := by
        change (if continuesNumber c = true then _ else _) = _
        rw [if_neg (by rw [(hrest c rfl).1]; decide), hn]
        rfl
      rw [hstep]

theorem number_goes_on (h : ∀ c ∈ cs, continuesNumber c = true) (rest seen : List Char)
    (done : List Token) : (cs ++ rest).foldlM step ⟨.number seen, done⟩ =
      rest.foldlM step ⟨.number (cs.reverse ++ seen), done⟩ := by
  induction cs generalizing seen with
  | nil => rfl
  | cons c cs ih =>
      have hstep : step ⟨.number seen, done⟩ c = some ⟨.number (c :: seen), done⟩ :=
        if_pos (h c List.mem_cons_self)
      rw [List.cons_append, List.foldlM_cons, hstep, List.reverse_cons, List.append_assoc]
      exact ih (fun d hd => h d (List.mem_cons_of_mem c hd)) (c :: seen)

theorem start_number {c : Char} (h : c = '-' ∨ c.isDigit = true) (done : List Token) :
    start done c = some ⟨.number [c], done⟩ := by
  have hne : ∀ x : Char, x ≠ '-' → x.isDigit = false → c ≠ x := by
    rintro x hminus hdigit rfl
    exact h.elim hminus fun h => absurd (h.symm.trans hdigit) (by decide)
  have hnumber : (c = '-' || c.isDigit) = true := by simpa using h
  unfold start
  rw [if_neg, if_neg (hne _ (by decide) rfl), if_neg (hne _ (by decide) rfl),
    if_neg (hne _ (by decide) rfl), if_neg (hne _ (by decide) rfl),
    if_neg (hne _ (by decide) rfl), if_neg (hne _ (by decide) rfl),
    if_neg (hne _ (by decide) rfl), if_pos hnumber]
  simp [isGap, hne ' ' (by decide) rfl, hne '\t' (by decide) rfl, hne '\n' (by decide) rfl,
    hne '\r' (by decide) rfl]

/-- A number that begins with a minus or a digit and can be read. -/
theorem spells_number {c : Char} {n : Number} (hc : c = '-' ∨ c.isDigit = true)
    (hcs : ∀ d ∈ cs, continuesNumber d = true) (hn : Number.ofLexeme? (c :: cs) = some n) :
    Spells (c :: cs) [.scalar (.num n)] := by
  intro rest done hrest
  rw [after, List.cons_append, List.foldlM_cons]
  change ((start done c).bind _).bind _ = _
  rw [start_number hc]
  change ((cs ++ rest).foldlM step ⟨.number [c], done⟩).bind finish = _
  rw [number_goes_on hcs]
  exact number_ends (by simpa using hn) hrest done

/-! ## Quoted texts -/

/-- Within quotes, a written character is read as itself. -/
theorem escape_read (c : Char) (seen : List Char) (done : List Token) :
    (Printer.escape c).foldlM step ⟨.text seen none, done⟩ =
      some ⟨.text (c :: seen) none, done⟩ := by
  obtain ⟨x, hx, hu, hread⟩ | ⟨n, hn, rfl, hcode⟩ | ⟨hplain, hquote, hbackslash, hcontrol⟩ :=
    Printer.escape_cases c
  · have hstep : step ⟨.escape seen none, done⟩ x = some ⟨.text (c :: seen) none, done⟩ := by
      change (if x = 'u' then _ else _) = _
      rw [if_neg hu, hread]
      rfl
    rw [hx]
    change (step ⟨.escape seen none, done⟩ x >>= fun s => pure s) = _
    rw [hstep]
    rfl
  · obtain ⟨hhigh, -⟩ := Printer.hexChar_reads (n / 16) (by omega)
    obtain ⟨hlow, -⟩ := Printer.hexChar_reads (n % 16) (by omega)
    have hput : putUnit seen none (n / 16 * 16 + n % 16) = .text (Char.ofNat n :: seen) none := by
      rw [show n / 16 * 16 + n % 16 = n by omega, putUnit, if_neg (by omega), if_neg (by omega)]
      rfl
    have hstep1 : step ⟨.code seen none 0 2, done⟩ (Printer.hexChar (n / 16)) =
        some ⟨.code seen none (n / 16) 1, done⟩ := by
      change (hexDigit? _).map _ = _
      rw [hhigh]
      simp
    have hstep2 : step ⟨.code seen none (n / 16) 1, done⟩ (Printer.hexChar (n % 16)) =
        some ⟨.text (Char.ofNat n :: seen) none, done⟩ := by
      change (hexDigit? _).map _ = _
      rw [hlow]
      exact congrArg (fun m => some (Scan.mk m done)) hput
    rw [hcode]
    change (step ⟨.code seen none 0 2, done⟩ (Printer.hexChar (n / 16)) >>= fun s =>
      step s (Printer.hexChar (n % 16)) >>= fun s => pure s) = _
    rw [hstep1]
    exact (congrArg (· >>= fun s => pure s) hstep2).trans rfl
  · have hstep : step ⟨.text seen none, done⟩ c = some ⟨.text (c :: seen) none, done⟩ := by
      change (if c = '"' then _ else if c = '\\' then _ else if c.toNat < 0x20 then _ else _) = _
      rw [if_neg hquote, if_neg hbackslash, if_neg hcontrol]
      rfl
    rw [hplain, List.foldlM_cons, hstep]
    rfl

theorem text_read (cs seen : List Char) (done : List Token) :
    (cs.flatMap Printer.escape).foldlM step ⟨.text seen none, done⟩ =
      some ⟨.text (cs.reverse ++ seen) none, done⟩ := by
  induction cs generalizing seen with
  | nil => rfl
  | cons c cs ih =>
      rw [List.flatMap_cons, List.foldlM_append, escape_read, List.reverse_cons,
        List.append_assoc]
      exact ih (c :: seen)

theorem closed_quoted (s : String) : Closed (Printer.quoted s) [.text s] := by
  intro rest done
  have hclose : step ⟨.text (s.toList.reverse ++ []) none, done⟩ '"' =
      some ⟨.between, .text s :: done⟩ := by
    change some (Scan.mk .between (.text (String.ofList (settle _ none).reverse) :: done)) = _
    rw [settle, List.append_nil, List.reverse_reverse, String.ofList_toList]
  rw [Printer.quoted, after, List.cons_append, List.foldlM_cons, List.append_assoc,
    List.singleton_append]
  change ((List.foldlM step ⟨.text [] none, done⟩ _)).bind _ = _
  rw [List.foldlM_append, text_read]
  change ((step ⟨.text (s.toList.reverse ++ []) none, done⟩ '"' >>= fun s =>
    rest.foldlM step s)).bind _ = _
  rw [hclose]
  rfl

end Token

/-! ## The tokens of a value -/

/-- The value a written number is read as. -/
def Number.reread (n : Number) : Value :=
  if n.isFinite then .ofOption .num (Number.ofLexeme? n.chars) else .null

mutual

/-- The tokens of a written value. -/
def Value.tokens : Value → List Token
  | .absent => [.scalar .null]
  | .null => [.scalar .null]
  | .bool b => [.scalar (.bool b)]
  | .num n => [.scalar n.reread]
  | .str s => [.text s]
  | .arr [] => [.openArray, .closeArray]
  | .arr (x :: xs) => .openArray :: (x.tokens ++ Value.itemTokens xs ++ [.closeArray])
  | .obj fs => .openRecord :: ((Value.fieldTokens fs).drop 1 ++ [.closeRecord])

/-- The tokens of further items, each after a comma. -/
def Value.itemTokens : List Value → List Token
  | [] => []
  | x :: xs => .comma :: (x.tokens ++ Value.itemTokens xs)

/-- The tokens of the fields that are there, each after a comma. -/
def Value.fieldTokens : List (String × Value) → List Token
  | [] => []
  | (k, v) :: fs =>
    if v.isAbsent then Value.fieldTokens fs
    else .comma :: .text k :: .colon :: (v.tokens ++ Value.fieldTokens fs)

end

namespace Printer

open Token

theorem number_spells (n : Number) : Spells (number n) [.scalar n.reread] := by
  by_cases hn : n.isFinite = true
  · obtain ⟨m, hm⟩ := Option.isSome_iff_exists.1 (Number.ofLexeme?_chars hn)
    have hreread : n.reread = .num m := by
      rw [Number.reread, if_pos hn, hm]
      rfl
    rw [number, if_pos hn, hreread]
    obtain ⟨cs, hcs, hchars | hchars⟩ := Number.chars_numeral hn
    · obtain ⟨d, ds, rfl, hd⟩ := hcs.head
      rw [hchars] at hm ⊢
      exact spells_number (.inr hd) (fun c hc => hcs.continues c (List.mem_cons_of_mem d hc)) hm
    · rw [hchars] at hm ⊢
      exact spells_number (.inl rfl) hcs.continues hm
  · rw [number, if_neg hn, Number.reread, if_neg hn]
    exact spells_null

theorem lineBreak_closed (l : Layout) (depth : Nat) : Closed (l.lineBreak depth) [] :=
  .gaps fun _ => lineBreak_blank

theorem lineBreak_delimited (l : Layout) (depth : Nat) : Delimited (l.lineBreak depth) := by
  cases l with
  | tight => exact .nil
  | spread => exact .cons rfl rfl

theorem colon_closed (l : Layout) : Closed l.colon [.colon] := by
  have hcolon : Closed [':'] [.colon] := .char fun _ => rfl
  cases l with
  | tight => exact hcolon
  | spread => exact hcolon.append (.gaps fun _ h => .inr (List.mem_singleton.1 h))

theorem items_delimited (l : Layout) (depth : Nat) (xs : List Value) :
    Delimited (items l depth xs) := by
  cases xs with
  | nil =>
      rw [items]
      exact .nil
  | cons x xs =>
      rw [items]
      exact .cons rfl rfl

/-- What stands in brackets is closed, whatever it ends in. -/
theorem bracketed_closed {b b' : Char} {t t' : Token} {cs : List Char} {ts : List Token}
    (l : Layout) (depth : Nat) (hopen : Closed [b] [t]) (h : Spells cs ts)
    (hclose : Closed [b'] [t']) (hb' : Delimited [b']) :
    Closed (b :: (cs ++ l.lineBreak depth ++ [b'])) (t :: (ts ++ [t'])) := by
  have hline := h.append (lineBreak_closed l depth).spells (lineBreak_delimited l depth)
  rw [List.append_nil] at hline
  exact hopen.append (hline.append_closed hclose hb')

mutual

/-- A written value spells its tokens. -/
theorem value_spells (l : Layout) (depth : Nat) : ∀ v : Value, Spells (value l depth v) v.tokens
  | .absent | .null => by
      rw [value, Value.tokens]
      exact spells_null
  | .bool true => by
      rw [value, Value.tokens]
      exact spells_true
  | .bool false => by
      rw [value, Value.tokens]
      exact spells_false
  | .num n => by
      rw [value, Value.tokens]
      exact number_spells n
  | .str s => by
      rw [value, Value.tokens]
      exact (closed_quoted s).spells
  | .arr xs => (array_closed l depth xs).spells
  | .obj fs => (record_closed l depth fs).spells

theorem array_closed (l : Layout) (depth : Nat) :
    ∀ xs : List Value, Closed (value l depth (.arr xs)) (Value.arr xs).tokens
  | [] => by
      have hopen : Closed ['['] [.openArray] := .char fun _ => rfl
      have hclose : Closed [']'] [.closeArray] := .char fun _ => rfl
      rw [value, Value.tokens]
      exact hopen.append hclose
  | x :: xs => by
      have hitems := (value_spells l (depth + 1) x).append (items_spells l (depth + 1) xs)
        (items_delimited l (depth + 1) xs)
      have hbody := (lineBreak_closed l (depth + 1)).append_spells hitems
      rw [← List.append_assoc] at hbody
      rw [value, Value.tokens]
      exact bracketed_closed l depth (.char fun _ => rfl) hbody (.char fun _ => rfl) (.cons rfl rfl)

theorem record_closed (l : Layout) (depth : Nat) :
    ∀ fs : Fields, Closed (value l depth (.obj fs)) (Value.obj fs).tokens
  | fs => by
      have hopen : Closed ['{'] [.openRecord] := .char fun _ => rfl
      have hclose : Closed ['}'] [.closeRecord] := .char fun _ => rfl
      rw [value, Value.tokens]
      obtain ⟨hnone, htokens⟩ | ⟨body, ts, hfields, htokens, hbody⟩ :=
        fields_spells l (depth + 1) fs
      · rw [hnone, htokens]
        exact hopen.append hclose
      · rw [hfields, htokens]
        exact bracketed_closed l depth hopen hbody hclose (.cons rfl rfl)

theorem items_spells (l : Layout) (depth : Nat) :
    ∀ xs, Spells (items l depth xs) (Value.itemTokens xs)
  | [] => by
      rw [items, Value.itemTokens]
      exact Closed.nil.spells
  | x :: xs => by
      have hitems := (value_spells l depth x).append (items_spells l depth xs)
        (items_delimited l depth xs)
      have hcomma : Closed [','] [.comma] := .char fun _ => rfl
      rw [items, Value.itemTokens, List.append_assoc]
      exact hcomma.append_spells ((lineBreak_closed l depth).append_spells hitems)

/-- The fields that are there spell their tokens, and so they do without the first comma. -/
theorem fields_spells (l : Layout) (depth : Nat) : ∀ fs,
    (fields l depth fs = [] ∧ Value.fieldTokens fs = []) ∨ ∃ body ts,
      fields l depth fs = ',' :: body ∧ Value.fieldTokens fs = .comma :: ts ∧ Spells body ts
  | [] => .inl ⟨by rw [fields], by rw [Value.fieldTokens]⟩
  | (k, v) :: fs => by
      have hfields := fields_spells l depth fs
      have hvalue := value_spells l depth v
      by_cases habsent : v = .absent
      · rw [habsent, fields, Value.fieldTokens]
        exact hfields
      · have hrest : Spells (fields l depth fs) (Value.fieldTokens fs) ∧
            Delimited (fields l depth fs) := by
          obtain ⟨hnone, htokens⟩ | ⟨body, ts, hbody, htokens, hspells⟩ := hfields
          · rw [hnone, htokens]
            exact ⟨Closed.nil.spells, .nil⟩
          · rw [hbody, htokens]
            have hcomma : Closed [','] [.comma] := .char fun _ => rfl
            exact ⟨hcomma.append_spells hspells, .cons rfl rfl⟩
        have hname := ((lineBreak_closed l depth).append (closed_quoted k)).append (colon_closed l)
        have hbody := hname.append_spells (hvalue.append hrest.1 hrest.2)
        rw [← List.append_assoc] at hbody
        refine .inr ⟨_, _, fields_cons l depth k habsent fs, ?_, hbody⟩
        rw [Value.fieldTokens, if_neg]
        · rfl
        · cases v <;> first | exact absurd rfl habsent | exact Bool.false_ne_true

end

end Printer

end ProxyFleet
