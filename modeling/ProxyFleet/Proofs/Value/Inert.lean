import ProxyFleet.Proofs.Number.Lexeme
import ProxyFleet.Value.Comments
import ProxyFleet.Value.Printer

/-!
# Written texts hold no comments

The passes that take out comments and closing commas leave every written text as
it stands. It is put together from pieces that both passes pass over whatever
follows (`Inert`). Outside of quotes such a piece has no slash; within quotes the
passes only count escapes, and every escape is written whole.

A comma is inert together with what follows it, since only that shows it not to
be a closing one.
-/

namespace ProxyFleet

namespace Printer

/-! ## Escapes -/

/-- How a character stands within quotes: after a backslash, by its code, or as it is. -/
theorem escape_cases (c : Char) :
    (∃ x, escape c = ['\\', x] ∧ x ≠ 'u' ∧ Token.escaped? x = some c) ∨
    (∃ n, n < 0x20 ∧ c = Char.ofNat n ∧
      escape c = ['\\', 'u', '0', '0', hexChar (n / 16), hexChar (n % 16)]) ∨
    (escape c = [c] ∧ c ≠ '"' ∧ c ≠ '\\' ∧ ¬c.toNat < 0x20) := by
  by_cases h1 : c = '"'
  · exact .inl ⟨'"', by subst h1; rfl, by decide, by subst h1; rfl⟩
  by_cases h2 : c = '\\'
  · exact .inl ⟨'\\', by subst h2; rfl, by decide, by subst h2; rfl⟩
  by_cases h3 : c = '\n'
  · exact .inl ⟨'n', by subst h3; rfl, by decide, by subst h3; rfl⟩
  by_cases h4 : c = '\r'
  · exact .inl ⟨'r', by subst h4; rfl, by decide, by subst h4; rfl⟩
  by_cases h5 : c = '\t'
  · exact .inl ⟨'t', by subst h5; rfl, by decide, by subst h5; rfl⟩
  by_cases h6 : c = '\x08'
  · exact .inl ⟨'b', by subst h6; rfl, by decide, by subst h6; rfl⟩
  by_cases h7 : c = '\x0c'
  · exact .inl ⟨'f', by subst h7; rfl, by decide, by subst h7; rfl⟩
  right
  simp only [escape, h1, h2, h3, h4, h5, h6, h7, if_false]
  by_cases h8 : c.toNat < 0x20
  · rw [if_pos h8]
    exact .inl ⟨c.toNat, h8, (Char.ofNat_toNat c).symm, rfl⟩
  · rw [if_neg h8]
    exact .inr ⟨rfl, h1, h2, h8⟩

/-- A digit in base 16 is read as what it was written for, and is no quote or backslash. -/
theorem hexChar_reads : ∀ n < 16,
    Token.hexDigit? (hexChar n) = some n ∧ hexChar n ≠ '"' ∧ hexChar n ≠ '\\' := by decide

end Printer

namespace Comments

/-! ## The two passes -/

/-- Where both passes are, within quotes or outside of them. -/
def place (quoted : Bool) : Place := if quoted then .quoted else .plain

/-- A piece that both passes leave as it stands, whatever follows. -/
def Inert (quoted : Bool) (cs : List Char) : Prop := ∀ rest,
  strip (place quoted) (cs ++ rest) = cs ++ strip (place quoted) rest ∧
    stripCommas quoted (cs ++ rest) = cs ++ stripCommas quoted rest

theorem strip_plain {c : Char} (hc : c ≠ '/') (cs : List Char) :
    strip .plain (c :: cs) = c :: strip (if c = '"' then .quoted else .plain) cs := by
  rw [strip]
  · exact fun _ h => absurd h hc
  · exact fun _ h => absurd h hc

theorem strip_quoted {c : Char} (hc : c ≠ '\\') (cs : List Char) :
    strip .quoted (c :: cs) = c :: strip (if c = '"' then .plain else .quoted) cs := by
  rw [strip]
  exact fun _ _ h => absurd h hc

theorem stripCommas_plain {c : Char} {cs : List Char} (hc : c ≠ ',' ∨ closesNext cs = false) :
    stripCommas false (c :: cs) = c :: stripCommas (c = '"') cs := by
  rw [stripCommas.eq_def]
  dsimp only
  rw [if_neg Bool.false_ne_true, if_neg]
  rcases hc with hc | hc <;> simp [hc]

theorem stripCommas_quoted {c : Char} (hc : c ≠ '\\') (cs : List Char) :
    stripCommas true (c :: cs) = c :: stripCommas (c != '"') cs := by
  rw [stripCommas.eq_def]
  dsimp only
  rw [if_pos rfl]
  split
  · exact absurd rfl hc
  · rfl

namespace Inert

variable {quoted : Bool} {cs ds : List Char}

theorem nil : Inert quoted [] := fun _ => ⟨rfl, rfl⟩

theorem append (h1 : Inert quoted cs) (h2 : Inert quoted ds) : Inert quoted (cs ++ ds) := by
  intro rest
  rw [List.append_assoc, (h1 (ds ++ rest)).1, (h1 (ds ++ rest)).2, (h2 rest).1, (h2 rest).2,
    List.append_assoc, List.append_assoc]
  exact ⟨rfl, rfl⟩

theorem flatMap {f : Char → List Char} (h : ∀ c ∈ cs, Inert quoted (f c)) :
    Inert quoted (cs.flatMap f) := by
  induction cs with
  | nil => exact nil
  | cons c cs ih =>
      rw [List.flatMap_cons]
      exact (h c List.mem_cons_self).append (ih fun d hd => h d (List.mem_cons_of_mem c hd))

/-- A character that starts nothing is inert outside of quotes. -/
theorem plain {c : Char} (hslash : c ≠ '/') (hquote : c ≠ '"') (hcomma : c ≠ ',') :
    Inert false [c] := by
  intro rest
  constructor
  · refine (strip_plain hslash rest).trans ?_
    rw [if_neg hquote]
    rfl
  · refine (stripCommas_plain (.inl hcomma)).trans ?_
    rw [decide_eq_false hquote]
    rfl

/-- Nothing but such characters. -/
theorem of_plain (h : ∀ c ∈ cs, c ≠ '/' ∧ c ≠ '"' ∧ c ≠ ',') : Inert false cs := by
  rw [← List.flatMap_singleton' cs]
  exact flatMap fun c hc => plain (h c hc).1 (h c hc).2.1 (h c hc).2.2

theorem of_all (h : (cs.all fun c => c != '/' && c != '"' && c != ',') = true) :
    Inert false cs := by
  refine of_plain fun c hc => ?_
  simpa [and_assoc] using List.all_eq_true.1 h c hc

theorem within {c : Char} (hquote : c ≠ '"') (hbackslash : c ≠ '\\') : Inert true [c] := by
  intro rest
  constructor
  · refine (strip_quoted hbackslash rest).trans ?_
    rw [if_neg hquote]
    rfl
  · refine (stripCommas_quoted hbackslash rest).trans ?_
    rw [bne_iff_ne.2 hquote]
    rfl

theorem escaped (x : Char) : Inert true ['\\', x] := by
  intro rest
  refine ⟨?_, rfl⟩
  change strip .quoted ('\\' :: x :: rest) = _
  rw [strip]
  rfl

theorem escape (c : Char) : Inert true (Printer.escape c) := by
  obtain ⟨x, hx, -⟩ | ⟨n, hn, -, hcode⟩ | ⟨hplain, hquote, hbackslash, -⟩ :=
    Printer.escape_cases c
  · rw [hx]
    exact escaped x
  · have hhex : ∀ k < 16, Inert true [Printer.hexChar k] := fun k hk =>
      within (Printer.hexChar_reads k hk).2.1 (Printer.hexChar_reads k hk).2.2
    have hzero : Inert true ['0'] := hhex 0 (by decide)
    rw [hcode]
    exact (escaped 'u').append (hzero.append (hzero.append
      ((hhex _ (by omega)).append (hhex _ (by omega)))))
  · rw [hplain]
    exact within hquote hbackslash

/-- Between quotes stands what is inert there: the closing quote is the first one that stands
unescaped. -/
theorem enquoted (h : Inert true cs) : Inert false ('"' :: (cs ++ ['"'])) := by
  intro rest
  obtain ⟨hstrip, hcommas⟩ := h ('"' :: rest)
  rw [List.cons_append, List.append_assoc, List.singleton_append]
  constructor
  · refine (strip_plain (by decide) _).trans (congrArg ('"' :: ·) (hstrip.trans ?_))
    refine (congrArg (_ ++ ·) (strip_quoted (by decide) rest)).trans ?_
    exact (List.append_assoc _ ['"'] _).symm
  · refine (stripCommas_plain (.inl (by decide))).trans (congrArg ('"' :: ·) (hcommas.trans ?_))
    refine (congrArg (_ ++ ·) (stripCommas_quoted (by decide) rest)).trans ?_
    exact (List.append_assoc _ ['"'] _).symm

theorem quotedText (s : String) : Inert false (Printer.quoted s) :=
  enquoted (flatMap fun c _ => escape c)

/-- A comma before something that closes nothing. -/
theorem comma (h : Inert false cs) (hopens : ∀ rest, closesNext (cs ++ rest) = false) :
    Inert false (',' :: cs) := by
  intro rest
  obtain ⟨hstrip, hcommas⟩ := h rest
  constructor
  · exact (strip_plain (by decide) (cs ++ rest)).trans (congrArg (',' :: ·) hstrip)
  · exact (stripCommas_plain (.inr (hopens rest))).trans (congrArg (',' :: ·) hcommas)

end Inert

end Comments

/-! ## Written values -/

namespace Printer

open Comments

/-- A character that a value or a name can begin with. -/
def begins (c : Char) : Bool := !isBlank c && c != ']' && c != '}'

theorem quoted_begins (s : String) : ∃ c cs, quoted s = c :: cs ∧ begins c = true :=
  ⟨'"', _, rfl, rfl⟩

theorem number_chars (n : Number) :
    (n.isFinite = false ∧ number n = "null".toList) ∨ (∃ cs, Numeral cs ∧
      (number n = cs ∨ number n = '-' :: cs)) := by
  unfold number
  by_cases h : n.isFinite = true
  · obtain ⟨cs, hcs, hchars⟩ := Number.chars_numeral h
    rw [if_pos h]
    exact .inr ⟨cs, hcs, hchars⟩
  · rw [if_neg h]
    exact .inl ⟨by simpa using h, rfl⟩

theorem begins_of_isDigit {c : Char} (h : c.isDigit = true) : begins c = true := by
  have hne : ∀ x : Char, x.isDigit = false → (c != x) = true := by
    rintro x hx
    refine bne_iff_ne.2 ?_
    rintro rfl
    exact absurd (h.symm.trans hx) (by decide)
  rw [begins, hne ']' rfl, hne '}' rfl, Bool.and_true, Bool.and_true, Bool.not_eq_true']
  simp only [Char.isDigit, Bool.and_eq_true, decide_eq_true_eq, ge_iff_le, UInt32.le_iff_toNat_le]
    at h
  have hlow : 48 ≤ c.toNat := h.1
  have hhigh : c.toNat ≤ 57 := h.2
  simp only [isBlank, Bool.or_eq_false_iff, Bool.and_eq_false_iff, decide_eq_false_iff_not]
  omega

theorem value_begins (l : Layout) (depth : Nat) (v : Value) :
    ∃ c cs, value l depth v = c :: cs ∧ begins c = true := by
  cases v with
  | absent | null =>
      exact ⟨'n', ['u', 'l', 'l'], by rw [value]; rfl, rfl⟩
  | bool b =>
      cases b with
      | true => exact ⟨'t', ['r', 'u', 'e'], by rw [value]; rfl, rfl⟩
      | false => exact ⟨'f', ['a', 'l', 's', 'e'], by rw [value]; rfl, rfl⟩
  | num n =>
      rw [value]
      obtain ⟨-, hnull⟩ | ⟨cs, hcs, hchars | hchars⟩ := number_chars n
      · exact ⟨'n', ['u', 'l', 'l'], hnull, rfl⟩
      · obtain ⟨d, ds, rfl, hd⟩ := hcs.head
        exact ⟨d, ds, hchars, begins_of_isDigit hd⟩
      · exact ⟨'-', cs, hchars, rfl⟩
  | str s =>
      rw [value]
      exact quoted_begins s
  | arr xs =>
      cases xs with
      | nil => exact ⟨'[', _, by rw [value], rfl⟩
      | cons x xs => exact ⟨'[', _, by rw [value], rfl⟩
  | obj fs =>
      rw [value]
      split
      · exact ⟨'{', _, rfl, rfl⟩
      · exact ⟨'{', _, rfl, rfl⟩

theorem lineBreak_blank {l : Layout} {depth : Nat} {c : Char} (h : c ∈ l.lineBreak depth) :
    c = '\n' ∨ c = ' ' := by
  cases l with
  | tight => cases h
  | spread => exact (List.mem_cons.1 h).imp_right fun h => (List.mem_replicate.1 h).2

/-- After a comma and a line break something begins. -/
theorem opens {l : Layout} {depth : Nat} {ds : List Char}
    (h : ∃ c cs, ds = c :: cs ∧ begins c = true) (rest : List Char) :
    closesNext (l.lineBreak depth ++ ds ++ rest) = false := by
  obtain ⟨c, cs, rfl, hc⟩ := h
  obtain ⟨⟨hblank, hbracket⟩, hbrace⟩ : (isBlank c = false ∧ c ≠ ']') ∧ c ≠ '}' := by
    simpa [begins] using hc
  have hgap : ∀ x ∈ l.lineBreak depth, isBlank x = true := fun x hx =>
    (lineBreak_blank hx).elim (fun h => h ▸ rfl) fun h => h ▸ rfl
  rw [closesNext, List.append_assoc, List.dropWhile_append_of_pos hgap, List.cons_append,
    List.dropWhile_cons_of_neg (by simp [hblank])]
  simp [hbracket, hbrace]

theorem lineBreak_inert (l : Layout) (depth : Nat) : Inert false (l.lineBreak depth) := by
  refine .of_plain fun c hc => ?_
  rcases lineBreak_blank hc with rfl | rfl <;> decide

theorem colon_inert (l : Layout) : Inert false l.colon := by
  cases l <;> exact .of_all rfl

theorem number_inert (n : Number) : Inert false (number n) := by
  have hnumeral : ∀ {cs}, Numeral cs → Inert false cs := by
    intro cs hcs
    refine .of_plain fun c hc => ?_
    have hne : ∀ x : Char, Token.continuesNumber x = false → c ≠ x := by
      rintro x hx rfl
      exact absurd ((hcs.continues c hc).symm.trans hx) (by decide)
    exact ⟨hne _ (by decide), hne _ (by decide), hne _ (by decide)⟩
  obtain ⟨-, hnull⟩ | ⟨cs, hcs, hchars | hchars⟩ := number_chars n
  · rw [hnull]
    exact .of_all rfl
  · rw [hchars]
    exact hnumeral hcs
  · rw [hchars]
    exact (Inert.plain (c := '-') (by decide) (by decide) (by decide)).append (hnumeral hcs)

theorem fields_cons (l : Layout) (depth : Nat) (k : String) {v : Value} (hv : v ≠ .absent)
    (fs : Fields) : fields l depth ((k, v) :: fs) =
      ',' :: (l.lineBreak depth ++ quoted k ++ l.colon ++ value l depth v ++ fields l depth fs) := by
  rw [fields]
  exact hv

/-- An opening bracket, what it holds, and the closing bracket on its line. -/
theorem bracketed_inert {b b' : Char} {cs : List Char} (l : Layout) (depth : Nat)
    (hopen : Inert false [b]) (h : Inert false cs) (hclose : Inert false [b']) :
    Inert false (b :: (cs ++ l.lineBreak depth ++ [b'])) :=
  hopen.append ((h.append (lineBreak_inert l depth)).append hclose)

mutual

/-- No written value holds a comment or a closing comma. -/
theorem value_inert (l : Layout) (depth : Nat) : ∀ v, Inert false (value l depth v)
  | .absent | .null => by
      rw [value]
      exact .of_all rfl
  | .bool true => by
      rw [value]
      exact .of_all rfl
  | .bool false => by
      rw [value]
      exact .of_all rfl
  | .num n => by
      rw [value]
      exact number_inert n
  | .str s => by
      rw [value]
      exact .quotedText s
  | .arr [] => by
      rw [value]
      exact .of_all rfl
  | .arr (x :: xs) => by
      rw [value]
      exact bracketed_inert l depth (.of_all rfl) (((lineBreak_inert l (depth + 1)).append
        (value_inert l (depth + 1) x)).append (items_inert l (depth + 1) xs))
        (.of_all rfl)
  | .obj fs => by
      rw [value]
      obtain hnone | ⟨body, hfields, hbody, -⟩ := fields_inert l (depth + 1) fs
      · have hempty : Inert false ['{', '}'] := .of_all rfl
        rw [hnone]
        exact hempty
      · rw [hfields]
        exact bracketed_inert l depth (.of_all rfl) hbody (.of_all rfl)

theorem items_inert (l : Layout) (depth : Nat) : ∀ xs, Inert false (items l depth xs)
  | [] => by
      rw [items]
      exact .nil
  | x :: xs => by
      rw [items]
      refine .comma (((lineBreak_inert l depth).append (value_inert l depth x)).append
        (items_inert l depth xs)) fun rest => ?_
      rw [List.append_assoc]
      exact opens (value_begins l depth x) _

/-- The fields that are there are inert, and so they are without the comma before the first. -/
theorem fields_inert (l : Layout) (depth : Nat) : ∀ fs, fields l depth fs = [] ∨
    ∃ body, fields l depth fs = ',' :: body ∧ Inert false body ∧ Inert false (',' :: body)
  | [] => .inl (by rw [fields])
  | (k, v) :: fs => by
      have hfields := fields_inert l depth fs
      have hvalue := value_inert l depth v
      by_cases habsent : v = .absent
      · rw [habsent, fields]
        exact hfields
      · have hrest : Inert false (fields l depth fs) := by
          obtain hnone | ⟨body, hbody, -, hinert⟩ := hfields
          · exact hnone ▸ .nil
          · exact hbody ▸ hinert
        have hbody := ((((lineBreak_inert l depth).append (.quotedText k)).append
          (colon_inert l)).append hvalue).append hrest
        refine .inr ⟨_, fields_cons l depth k habsent fs, hbody, .comma hbody fun rest => ?_⟩
        rw [List.append_assoc, List.append_assoc, List.append_assoc]
        exact opens (quoted_begins k) _

end

end Printer

/-- A written value is read as if there were no comments at all. -/
theorem Value.ofCommentedText?_value (l : Layout) (depth : Nat) (v : Value) :
    ofCommentedText? (String.ofList (Printer.value l depth v)) =
      ofChars? (Printer.value l depth v) := by
  obtain ⟨hstrip, hcommas⟩ := Printer.value_inert l depth v []
  rw [List.append_nil] at hstrip hcommas
  have hstrip : Comments.strip .plain (Printer.value l depth v) = Printer.value l depth v := by
    refine hstrip.trans ?_
    rw [Comments.place, if_neg Bool.false_ne_true, Comments.strip, List.append_nil]
  have hcommas : Comments.stripCommas false (Printer.value l depth v) =
      Printer.value l depth v := by
    refine hcommas.trans ?_
    rw [Comments.stripCommas, List.append_nil]
  rw [ofCommentedText?, String.toList_ofList, hstrip, hcommas]

end ProxyFleet
