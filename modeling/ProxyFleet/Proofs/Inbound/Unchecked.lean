import ProxyFleet.Inbound.Unchecked
import ProxyFleet.Proofs.Store.Columns

/-!
# Writing unchecked records comes to an end

Writing a record asks its parts for their fields, their items and their reading, and faults
where there is nothing to ask. `EndsIff` says on which condition writing comes to an end;
there is a rule for each way in which writing is put together, so that the condition for an
engine comes about as its writer does. Nothing that was noted before plays a part.
-/

namespace ProxyFleet

/-! ## Values in words -/

namespace Value

mutual

/-- Whether a value reads as anything inside running text. -/
def speakable : Value → Bool
  | .arr xs => areSpeakable xs
  | .obj fs => !Fields.has fs readingName
  | _ => true

def areSpeakable : List Value → Bool
  | [] => true
  | x :: xs => speakable x && areSpeakable xs

end

theorem exists_ok_map {ε α β : Type} {x : Except ε α} {f : α → β} :
    (∃ b, x.map f = .ok b) ↔ ∃ a, x = .ok a := by
  cases x <;> simp [Except.map]

theorem exists_ok_bind {ε α β : Type} {x : Except ε α} {f : α → Except ε β} :
    (∃ b, x >>= f = .ok b) ↔ ∃ a, x = .ok a ∧ ∃ b, f a = .ok b := by
  cases x <;> simp [bind, Except.bind]

mutual

theorem displayChars_ends : ∀ v : Value, (∃ cs, v.displayChars = .ok cs) ↔ v.speakable = true
  | .absent | .null | .num _ | .str _ => by simp [displayChars, speakable]
  | .bool b => by cases b <;> simp [displayChars, speakable]
  | .arr xs => by simpa [displayChars, speakable] using displayItems_ends xs
  | .obj fs => by cases hfs : Fields.has fs readingName <;> simp [displayChars, speakable, hfs]

theorem displayItems_ends : ∀ xs : List Value,
    (∃ cs, displayItems xs = .ok cs) ↔ areSpeakable xs = true
  | [] => by simp [displayItems, areSpeakable]
  | [x] => by
      have hx := displayChars_ends x
      cases x <;> simp [displayItems, areSpeakable, speakable] at hx ⊢ <;> exact hx
  | x :: y :: ys => by
      have hx := displayChars_ends x
      have hys := displayItems_ends (y :: ys)
      have hboth : (∃ cs, (do
          let head ← displayChars x
          let rest ← displayItems (y :: ys)
          pure (head ++ ',' :: rest)) = Except.ok (ε := ShapeFault) cs) ↔
          areSpeakable (x :: y :: ys) = true := by
        rw [areSpeakable, Bool.and_eq_true, ← hx, ← hys, exists_ok_bind]
        simp [exists_ok_bind, pure, Except.pure]
      cases x with
      | absent | null =>
          exact (exists_ok_map (f := (',' :: ·))).trans hys
      | _ => exact hboth

end

theorem display_ends {v : Value} : (∃ s, v.display = .ok s) ↔ v.speakable = true :=
  exists_ok_map.trans v.displayChars_ends

theorem field_eq_ok {v : Value} (h : v.isNothing = false) (n : String) :
    v.field n = .ok (v.get n) := by
  cases v <;> first | rfl | cases h

theorem field_ends {v : Value} {n : String} : (∃ w, v.field n = .ok w) ↔ v.isNothing = false := by
  cases v <;> simp [field, isNothing]

theorem isNothing_eq_false {v : Value} : v.isNothing = false ↔ v ≠ .absent ∧ v ≠ .null := by
  cases v <;> simp [isNothing]

theorem isNothing_of_get {v : Value} {n : String} (h : v.get n ≠ .absent) :
    v.isNothing = false := by
  cases v <;> first | rfl | exact absurd rfl h

theorem ne_absent_of_isTruthy {v : Value} (h : v.isTruthy = true) : v ≠ .absent := by
  rintro rfl
  cases h

/-- A part that need not be there but may not be null; one that is there is as said. -/
def Optional (C : Value → Prop) (v : Value) : Prop := v ≠ .null ∧ (v ≠ .absent → C v)

theorem optional_of_ne_absent {C : Value → Prop} {v : Value} (h : v ≠ .absent) :
    Optional C v ↔ v.isNothing = false ∧ C v := by
  rw [Optional, isNothing_eq_false]
  tauto

theorem optional_true {v : Value} : Optional (fun _ => True) v ↔ v ≠ .null := by simp [Optional]

end Value

/-! ## Writing that comes to an end -/

namespace Unchecked

open Value (field_ends field_eq_ok display_ends isNothing_eq_false)

variable {α β : Type} {P Q : Prop} {v : Value}

/-- Writing comes to an end exactly if a condition holds, whatever was noted before. -/
def EndsIff (w : Write α) (P : Prop) : Prop := ∀ notes, (∃ r, w notes = .ok r) ↔ P

namespace EndsIff

theorem of_iff {w : Write α} (h : EndsIff w P) (hiff : P ↔ Q) : EndsIff w Q :=
  fun notes => (h notes).trans hiff

theorem pure (a : α) : EndsIff (Pure.pure a) True := fun notes => iff_true_intro ⟨(a, notes), rfl⟩

theorem note (text : String) : EndsIff (Unchecked.note text) True :=
  fun notes => iff_true_intro ⟨((), notes ++ [text]), rfl⟩

theorem lift (x : Except ShapeFault α) : EndsIff (liftM x) (∃ a, x = .ok a) := by
  intro notes
  cases x with
  | error e => exact iff_of_false nofun nofun
  | ok a => exact iff_of_true ⟨(a, notes), rfl⟩ ⟨a, rfl⟩

/-- What comes second needs to be looked at only if what comes first ends. -/
theorem bind {w : Write α} {f : α → Write β} (hw : EndsIff w P)
    (hf : P → ∀ a, EndsIff (f a) Q) : EndsIff (w >>= f) (P ∧ Q) := by
  intro notes
  have hsplit : (w >>= f) notes = w notes >>= fun r => f r.1 r.2 := rfl
  rw [hsplit, Value.exists_ok_bind]
  constructor
  · rintro ⟨r, hr, hend⟩
    have hP := (hw notes).1 ⟨r, hr⟩
    exact ⟨hP, (hf hP r.1 r.2).1 hend⟩
  · rintro ⟨hP, hQ⟩
    obtain ⟨r, hr⟩ := (hw notes).2 hP
    exact ⟨r, hr, (hf hP r.1 r.2).2 hQ⟩

/-- What comes first asks for nothing that what comes second does not ask for, too. -/
theorem before {w : Write α} {f : α → Write β} (hw : Q → EndsIff w True)
    (hf : ∀ a, EndsIff (f a) Q) : EndsIff (w >>= f) Q := by
  intro notes
  have hsplit : (w >>= f) notes = w notes >>= fun r => f r.1 r.2 := rfl
  rw [hsplit, Value.exists_ok_bind]
  constructor
  · rintro ⟨r, -, hend⟩
    exact (hf r.1 r.2).1 hend
  · intro hQ
    obtain ⟨r, hr⟩ := (hw hQ notes).2 trivial
    exact ⟨r, hr, (hf r.1 r.2).2 hQ⟩

theorem known {x : Except ShapeFault α} {a : α} {f : α → Write β} (hx : x = .ok a)
    (hf : EndsIff (f a) Q) : EndsIff (liftM x >>= f) Q := by
  subst hx
  exact hf

theorem fault {x : Except ShapeFault α} {f : α → Write β} (hx : ¬∃ a, x = .ok a) :
    EndsIff (liftM x >>= f) False :=
  .of_iff (.bind (Q := False) (.lift x) fun h => absurd h hx) (by simp)

theorem field {n : String} {f : Value → Write β} (hf : EndsIff (f (v.get n)) Q) :
    EndsIff (liftM (v.field n) >>= f) (v.isNothing = false ∧ Q) := by
  cases hv : v.isNothing with
  | true => exact .of_iff (.fault (by simp [field_ends, hv])) (by simp)
  | false => exact .of_iff (.known (field_eq_ok hv n) hf) (by simp)

theorem display : EndsIff (liftM v.display) (v.speakable = true) := .of_iff (.lift _) display_ends

theorem ite {c : Prop} [Decidable c] {w w' : Write α} (ht : c → EndsIff w P)
    (he : ¬c → EndsIff w' P) : EndsIff (if c then w else w') P := by
  split
  · next h => exact ht h
  · next h => exact he h

theorem branch {c : Prop} [Decidable c] {w w' : Write α} (ht : EndsIff w P) (he : EndsIff w' Q) :
    EndsIff (if c then w else w') (if c then P else Q) := by
  split
  · exact ht
  · exact he

theorem mapM {f : α → Write β} {C : α → Prop} {as : List α} (h : ∀ a, EndsIff (f a) (C a)) :
    EndsIff (as.mapM f) (∀ a ∈ as, C a) := by
  induction as with
  | nil => exact .of_iff (.pure []) (by simp)
  | cons a as ih =>
      rw [List.mapM_cons]
      exact .of_iff (.bind (h a) fun _ _ => .bind ih fun _ _ => .pure _) (by simp)

theorem foldlM {f : β → α → Write β} {as : List α} (h : ∀ b, ∀ a ∈ as, EndsIff (f b a) True)
    {b : β} : EndsIff (as.foldlM f b) True := by
  induction as generalizing b with
  | nil => exact .pure b
  | cons a as ih =>
      rw [List.foldlM_cons]
      have hrest : ∀ {b}, EndsIff (as.foldlM f b) True :=
        ih fun b a ha => h b a (List.mem_cons_of_mem _ ha)
      exact .of_iff (.bind (h b a List.mem_cons_self) fun _ _ => hrest) (by simp)

theorem forM {f : α → Write PUnit} {as : List α} (h : ∀ a, EndsIff (f a) True) :
    EndsIff (as.forM f) True := by
  induction as with
  | nil => exact .pure _
  | cons a as ih => exact .of_iff (.bind (h a) fun _ _ => ih) (by simp)

theorem select {names : List (String × String)} (hnames : names ≠ []) :
    EndsIff (Unchecked.select v names) (v.isNothing = false) := by
  have hone : ∀ name : String × String, EndsIff (do
      Pure.pure (name.1, ← liftM (v.field name.2)) : Write (String × Value)) (v.isNothing = false) :=
    fun name => .of_iff (.field (.pure _)) (by simp)
  refine .of_iff (.bind (.mapM hone) fun _ _ => .pure _) ?_
  obtain ⟨name, hname⟩ := List.exists_mem_of_ne_nil names hnames
  simp only [and_true]
  exact ⟨fun h => h name hname, fun h _ _ => h⟩

end EndsIff

theorem displayOrEmpty_ends (v : Value) :
    EndsIff (liftM v.displayOrEmpty) (v.speakable = true) := by
  refine .of_iff (.lift _) ?_
  unfold Value.displayOrEmpty
  split
  · next h => cases v <;> simp_all [Value.isNothing, Value.speakable]
  · exact display_ends

theorem label_ends {tag : Value} (htag : tag.speakable = true) (index : Nat) :
    EndsIff (label tag index) True :=
  .ite (fun _ => .pure _) fun _ => .of_iff (.bind .display fun _ _ => .pure _) (by simp [htag])

theorem shadowsocksMethod_ends {options : Value} (hoptions : options.isNothing = false)
    {users : List Value} (husers : ∀ u ∈ users, u.isNothing = false) :
    EndsIff (shadowsocksMethod options users) True := by
  refine .of_iff (.field (.ite (fun _ => .pure _) fun _ => ?_)) (by simp [hoptions])
  refine .of_iff (.bind (.foldlM ?_) fun _ _ => .pure _) (by simp)
  rintro (_ | m) u hu
  · exact .of_iff (.field (.pure _)) (by simp [husers u hu])
  · exact .pure _

theorem headerFields_ends (t : Value) : EndsIff (headerFields t) (t.isNothing = false) :=
  .of_iff (.field (.field (.pure _))) (by simp)

/-! ### sing-box -/

theorem singBoxUser_ends (type : Value) (realityOn : Bool) (u : Value) :
    EndsIff (singBoxUser type realityOn u) (u.isNothing = false) := by
  unfold singBoxUser
  refine .ite (fun _ => ?_) fun _ => .ite (fun _ => ?_) fun _ => .ite (fun _ => ?_) fun _ =>
    .ite (fun _ => ?_) fun _ => ?_
  · exact .of_iff (.bind (.select (by simp)) fun _ _ => .field (.pure _)) (by simp)
  all_goals exact .of_iff (.bind (.select (by simp)) fun _ _ => .pure _) (by simp)

/-- Server names that sing-box has no place for can be told of: they are an array of values that
read as something, or count as none. -/
def NamesTold : Value → Prop
  | .arr xs => ∀ x ∈ xs, x.speakable = true
  | others => hasItems others = .ok false

theorem tellNames_ends (others : Value) (place : String) :
    EndsIff (tellNames others place) (NamesTold others) := by
  have hnone : ∀ o : Value, o.itemsOrFault = .error .noItems →
      EndsIff (tellNames o place) (hasItems o = .ok false) := by
    intro o ho
    cases h : hasItems o with
    | error e => exact .of_iff (.fault (by simp [h])) (by simp)
    | ok listed =>
        refine .known h ?_
        cases listed with
        | true => exact .of_iff (.fault (by simp [ho])) (by simp)
        | false => exact .of_iff (.pure ()) (by simp)
  cases others with
  | arr xs =>
      refine .known (a := !xs.isEmpty) rfl (.ite (fun _ => .known rfl ?_) fun h => ?_)
      · exact .of_iff (.bind (.mapM displayOrEmpty_ends) fun _ _ => .note _) (by simp [NamesTold])
      · exact .of_iff (.pure ()) (by simp_all [NamesTold])
  | _ => exact hnone _ rfl

theorem tellClientKeys_ends (r : Value) (place : String) :
    EndsIff (tellClientKeys r place) (r.isNothing = false) :=
  .of_iff (.field (.field (.ite (fun _ => .note _) fun _ => .pure _))) (by simp)

theorem partField_ends {name : String} {write : Value → Write Value} {C : Value → Prop}
    (h : ∀ v, EndsIff (write v) (v.isNothing = false ∧ C v)) (part : Value) :
    EndsIff (partField name write part) (part.Optional C) := by
  unfold partField
  split
  · exact .of_iff (.pure _) (by simp [Value.Optional])
  · next hpart =>
    refine .of_iff (.bind (h _) fun _ _ => .pure _) ?_
    rw [Value.optional_of_ne_absent hpart, and_true]

/-- The records of a Reality that sing-box gets through with. -/
def SingBoxReality (r : Value) : Prop :=
  r.get "handshake" ≠ .null ∧ NamesTold (r.get "alternateServerNames")

theorem singBoxReality_ends (r : Value) (place : String) :
    EndsIff (singBoxReality r place) (r.isNothing = false ∧ SingBoxReality r) := by
  have hhandshake : ∀ h, EndsIff (singBoxHandshake h) (h.isNothing = false ∧ True) := fun h =>
    .of_iff (.field (.field (.pure _))) (by simp)
  refine .of_iff (.bind (.select (by simp)) fun _ _ => .field (.bind (partField_ends hhandshake _)
    fun _ _ => .field (.bind (tellNames_ends _ _) fun _ _ =>
      .bind (tellClientKeys_ends _ _) fun _ _ => .pure _))) ?_
  rw [Value.optional_true, SingBoxReality]
  tauto

theorem singBoxTls_ends (t : Value) (place : String) : EndsIff (singBoxTls t place)
    (t.isNothing = false ∧ (t.get "reality").Optional SingBoxReality) := by
  refine .of_iff (.field (Q := t.isNothing = false ∧ (t.get "reality").Optional SingBoxReality) ?_)
    and_self_left
  extract_lets inner rest
  have hrest : ∀ serverName, EndsIff (rest serverName)
      (t.isNothing = false ∧ (t.get "reality").Optional SingBoxReality) := fun _ =>
    .of_iff (.field (.field (.field (.field (.bind
      (partField_ends (fun r => singBoxReality_ends r place) _) fun _ _ => .pure _))))) (by tauto)
  exact .ite (fun _ => .of_iff (.bind (.pure _) fun _ s => hrest s) (by simp)) fun _ =>
    .of_iff (.field (hrest _)) and_self_left

theorem singBoxMultiplex_ends (m : Value) : EndsIff (singBoxMultiplex m)
    (m.isNothing = false ∧ m.get "brutal" ≠ .null) := by
  have hbrutal : ∀ b, EndsIff (singBoxBrutal b) (b.isNothing = false ∧ True) := fun b =>
    .of_iff (.field (.field (.field (.pure _)))) (by simp)
  refine .of_iff (.field (.field (.field (.bind (partField_ends hbrutal _) fun _ _ => .pure _)))) ?_
  rw [Value.optional_true]
  tauto

theorem speakable_of_isOneOf {ss : List String} (h : isOneOf v ss = true) :
    v.speakable = true := by
  cases v <;> first | rfl | cases h

theorem singBoxTransport_ends (t : Value) (place : String) : EndsIff (singBoxTransport t place)
    (t.isNothing = false ∧ (t.get "type").speakable = true) := by
  by_cases ht : t.isNothing = true
  · exact .of_iff (.fault (by simp [field_ends, ht])) (by simp [ht])
  rw [Bool.not_eq_true] at ht
  refine .field (.ite (fun _ => ?_) fun hknown => ?_)
  · exact .of_iff (.bind .display fun _ _ => .bind (.note _) fun _ _ => .pure _) (by simp)
  · have hspeakable : (t.get "type").speakable = true :=
      speakable_of_isOneOf (by simpa using hknown)
    have hheaders : EndsIff (headerFields t) True := .of_iff (headerFields_ends t) (by simp [ht])
    have hselect : ∀ {names}, names ≠ [] → EndsIff (select t names) True := fun h =>
      .of_iff (.select h) (by simp [ht])
    refine .of_iff (.ite (fun _ => ?_) fun _ => .ite (fun _ => ?_) fun _ =>
      .ite (fun _ => ?_) fun _ => .ite (fun _ => ?_) fun _ => .pure _) (by simp [hspeakable])
    · exact .of_iff (.bind hheaders fun _ _ => .bind (hselect (by simp)) fun _ _ => .pure _)
        (by simp)
    · exact .of_iff (.bind (hselect (by simp)) fun _ _ => .pure _) (by simp)
    · exact .of_iff (.bind (hselect (by simp)) fun _ _ => .field (.pure _)) (by simp [ht])
    · exact .of_iff (.bind (hselect (by simp)) fun _ _ => .pure _) (by simp)

theorem singBoxShadowsocks_ends {options : Value} (hoptions : options.isNothing = false)
    (users : List Value) {writeUser : Value → Write Value}
    (hwrite : ∀ u, EndsIff (writeUser u) (u.isNothing = false)) :
    EndsIff (singBoxShadowsocks options users writeUser) (∀ u ∈ users, u.isNothing = false) := by
  refine .before (fun husers => shadowsocksMethod_ends hoptions husers) fun method => ?_
  refine .of_iff (.bind (Q := True) (.mapM hwrite) fun husers written => ?_) (by simp)
  refine .ite (fun _ => .of_iff (.bind (.pure _) fun _ _ => .pure _) (by simp)) fun _ => ?_
  split
  · next u => exact .of_iff (.field (.bind (.pure _) fun _ _ => .pure _)) (by simp [husers u])
  · exact .of_iff (.bind (.pure _) fun _ _ => .pure _) (by simp)

/-- The records that sing-box gets through with. -/
structure SingBoxWritable (v : Value) : Prop where
  users : ∀ u ∈ (v.get "users").items?.getD [], u.isNothing = false
  tls : (v.get "tls").Optional fun t => (t.get "reality").Optional SingBoxReality
  multiplex : (v.get "multiplex").Optional fun m => m.get "brutal" ≠ .null
  transport : (v.get "transport").Optional fun t => (t.get "type").speakable = true

theorem singBoxWritable_iff : SingBoxWritable v ↔
    (∀ u ∈ (v.get "users").items?.getD [], u.isNothing = false) ∧
    (v.get "tls").Optional (fun t => (t.get "reality").Optional SingBoxReality) ∧
    (v.get "multiplex").Optional (fun m => m.get "brutal" ≠ .null) ∧
    (v.get "transport").Optional (fun t => (t.get "type").speakable = true) :=
  ⟨fun ⟨h1, h2, h3, h4⟩ => ⟨h1, h2, h3, h4⟩, fun ⟨h1, h2, h3, h4⟩ => ⟨h1, h2, h3, h4⟩⟩

/-- What the top of a listener's record gives for the asking. -/
structure Top (v : Value) (tag : String) (us : List Value) (os : Fields) : Prop where
  isNothing : v.isNothing = false
  tag : v.get "tag" = .str tag
  type : ∃ type, v.get "type" = .str type
  users : v.get "users" = .arr us
  options : v.get "options" = .obj os

theorem top_of_isInbound (h : v.isInbound = true) : ∃ tag us os, Top v tag us os := by
  obtain ⟨fs, rfl, htexts, -, ⟨os, hoptions⟩, harrays⟩ := Value.isInbound_iff.1 h
  obtain ⟨tag, htag⟩ := htexts "tag" (by simp)
  obtain ⟨us, husers⟩ := harrays "users" (by simp)
  exact ⟨tag, us, os, rfl, htag, htexts "type" (by simp), husers, hoptions⟩

theorem singBoxClients_ends (type : Value) (realityOn : Bool) {options : Value}
    (hoptions : options.isNothing = false) (users : List Value) :
    EndsIff (singBoxClients type options realityOn users) (∀ u ∈ users, u.isNothing = false) :=
  .ite (fun _ => singBoxShadowsocks_ends hoptions users (singBoxUser_ends _ _)) fun _ =>
    .of_iff (.bind (.mapM (singBoxUser_ends _ _)) fun _ _ => .pure _) (by simp)

theorem singBoxOptions_ends (type : Value) (place : String) (options head : Fields) :
    EndsIff (singBoxOptions type place options head) True :=
  .foldlM (fun _ _ _ _ => iff_true_intro ⟨_, rfl⟩)

theorem singBoxParts_ends (v : Value) (place : String) : EndsIff (singBoxParts v place)
    ((v.get "tls").Optional (fun t => (t.get "reality").Optional SingBoxReality) ∧
      (v.get "multiplex").Optional (fun m => m.get "brutal" ≠ .null) ∧
      (v.get "transport").Optional (fun t => (t.get "type").speakable = true)) := by
  refine .bind (partField_ends (fun t => singBoxTls_ends t place) _) fun _ _ =>
    .bind (partField_ends singBoxMultiplex_ends _) fun _ _ => ?_
  dsimp only
  split
  · next habsent => exact .of_iff (.pure _) (by simp [habsent, Value.Optional])
  · next hthere =>
    exact .of_iff (.bind (singBoxTransport_ends _ place) fun _ _ => .pure _)
      (by rw [Value.optional_of_ne_absent hthere, and_true])

theorem singBox_ends {tag : String} {us : List Value} {os : Fields} (h : Top v tag us os)
    (index : Nat) : EndsIff (singBox v index) (SingBoxWritable v) := by
  have hlabel : EndsIff (label (v.get "tag") index) True := label_ends (by rw [h.tag]; rfl) index
  have husers : (v.get "users").itemsOrFault = .ok us := by rw [h.users]; rfl
  have hoptions : (v.get "options").isNothing = false := by rw [h.options]; rfl
  refine .of_iff (.field (.bind hlabel fun _ place => .known husers
    (.bind (singBoxClients_ends _ _ hoptions us) fun _ _ => .bind (singBoxOptions_ends _ _ _ _)
      fun _ _ => .bind (singBoxParts_ends v place) fun _ _ => .pure _))) ?_
  rw [singBoxWritable_iff]
  simp [h.isNothing, h.users, Value.items?]

/-! ### Xray -/

theorem xrayShadowsocks_ends {options : Value} (hoptions : options.isNothing = false)
    (users : List Value) :
    EndsIff (xrayShadowsocks options users) (∀ u ∈ users, u.isNothing = false) := by
  refine .before (fun husers => shadowsocksMethod_ends hoptions husers) fun method => ?_
  extract_lets network password listed
  have hlisted : EndsIff listed (∀ u ∈ users, u.isNothing = false) :=
    .of_iff (.bind (.mapM (fun u => .bind (.select (by simp)) fun _ _ => .pure _))
      fun _ _ => .pure _) (by simp)
  split
  · exact .ite (fun _ => .of_iff (.field (.field (.pure _))) (by simp)) fun _ => hlisted
  · exact hlisted

theorem xraySettings_ends {us : List Value} (husers : v.get "users" = .arr us)
    (hoptions : (v.get "options").isNothing = false) (type : Value) :
    EndsIff (xraySettings v type) (∀ u ∈ us, u.isNothing = false) := by
  have hitems : (v.get "users").itemsOrFault = .ok us := by rw [husers]; rfl
  refine .known hitems (.ite (fun _ => ?vless) fun _ => .ite (fun _ => ?vmess) fun _ =>
    .ite (fun _ => ?trojan) fun _ => .ite (fun _ => xrayShadowsocks_ends hoptions us) fun _ =>
    .ite (fun _ => ?accounts) fun _ => ?others)
  case vless =>
    exact .of_iff (.bind (.mapM fun _ => .bind (.select (by simp)) fun _ _ => .field (.pure _))
      fun _ _ => .pure _) (by simp)
  case accounts =>
    exact .of_iff (.bind (.mapM fun _ => .field (.field (.pure _))) fun _ _ => .pure _) (by simp)
  all_goals
    exact .of_iff (.bind (.mapM fun _ => .bind (.select (by simp)) fun _ _ => .pure _)
      fun _ _ => .pure _) (by simp)

theorem xrayTransport_ends (t type : Value) :
    EndsIff (xrayTransport t type) (t.isNothing = false) := by
  refine .ite (fun _ => ?_) fun _ => .ite (fun _ => .select (by simp)) fun _ =>
    .ite (fun _ => ?_) fun _ => .select (by simp)
  · exact .of_iff (.bind (headerFields_ends t) fun _ _ => .bind (.select (by simp)) fun _ _ =>
      .pure _) (by simp)
  · exact .of_iff (.bind (.select (by simp)) fun _ _ => .field (.pure _)) (by simp)

theorem EndsIff.switchedOn {part : Value} {f : Bool → Write β}
    (hf : EndsIff (f (part.get "enabled").isTruthy) Q) :
    EndsIff (Unchecked.switchedOn part >>= f) (part ≠ .null ∧ Q) := by
  have hnull : ¬∃ w, Value.null.field "enabled" = .ok w := by simp [field_ends, Value.isNothing]
  cases part with
  | absent => exact .of_iff (w := f false) hf (by simp)
  | null => exact .of_iff (.fault (f := fun w => f w.isTruthy) hnull) (by simp)
  | _ => exact .of_iff (w := f _) hf (by simp)

/-- A handshake that tells where to hand visitors to, with the server name if there is none. -/
structure Leads (handshake serverName : Value) : Prop where
  asked : handshake ≠ .null
  serverName : handshake = .absent → serverName.speakable = true
  server : (handshake.get "server").speakable = true
  serverPort : (handshake.get "serverPort").speakable = true

theorem xrayDestination_ends (handshake serverName : Value) :
    EndsIff (xrayDestination handshake serverName) (Leads handshake serverName) := by
  unfold xrayDestination
  split
  · exact .of_iff (.bind .display fun _ _ => .pure _)
      ⟨fun h => ⟨nofun, fun _ => h.1, rfl, rfl⟩, fun h => ⟨h.serverName rfl, trivial⟩⟩
  · next hthere =>
    refine .of_iff (.field (.bind .display fun _ _ => .field (.bind .display fun _ _ => .pure _))) ?_
    rw [isNothing_eq_false]
    constructor
    · rintro ⟨⟨-, hasked⟩, hserver, -, hport, -⟩
      exact ⟨hasked, fun h => absurd h hthere, hserver, hport⟩
    · rintro ⟨hasked, -, hserver, hport⟩
      exact ⟨⟨hthere, hasked⟩, hserver, ⟨hthere, hasked⟩, hport, trivial⟩

theorem spread_ends : (∃ xs, v.spread = .ok xs) ↔ (v.items?.isSome || v.text?.isSome) = true := by
  cases v <;> simp [Value.spread, Value.items?, Value.text?]

/-- The Reality of a security that Xray gets through with once it is switched on. -/
structure XrayReality (r t : Value) : Prop where
  destination : Leads (r.get "handshake") ((r.get "serverName").or (t.get "serverName"))
  serverNames : ((r.get "alternateServerNames").items?.isSome ||
    (r.get "alternateServerNames").text?.isSome) = true

theorem xrayReality_ends (r t : Value) : EndsIff (xrayReality r t)
    (r.isNothing = false ∧ t.isNothing = false ∧ XrayReality r t) := by
  have hspread : EndsIff (liftM (r.get "alternateServerNames").spread) _ :=
    .of_iff (.lift _) spread_ends
  refine .of_iff (.field (.field (.field (.bind (xrayDestination_ends _ _) fun _ _ =>
    .field (.bind hspread fun _ _ => .field (.field (.field (.field (.pure _))))))))) ?_
  constructor
  · rintro ⟨hr, ht, -, hto, -, hnames, -⟩
    exact ⟨hr, ht, hto, hnames⟩
  · rintro ⟨hr, ht, hto, hnames⟩
    exact ⟨hr, ht, hr, hto, hr, hnames, hr, hr, hr, hr, trivial⟩

theorem xrayTls_ends (t : Value) : EndsIff (xrayTls t) (t.isNothing = false) :=
  .of_iff (.bind (.select (by simp)) fun _ _ => .field (.field (.field (.field (.pure _)))))
    (by simp)

/-- The security of a record that Xray gets through with, where it looks at it. -/
def XrayTls (t : Value) : Prop :=
  t.get "reality" ≠ .null ∧
    (((t.get "reality").get "enabled").isTruthy = true → XrayReality (t.get "reality") t)

theorem xraySecurity_ends (tls : Value) : EndsIff (xraySecurity tls) (tls.Optional XrayTls) := by
  unfold xraySecurity
  split
  · exact .of_iff (.pure _) (by simp [Value.Optional])
  · next hthere =>
    refine .of_iff (.field (.switchedOn (.branch
      (.bind (xrayReality_ends _ _) fun _ _ => .pure _) (.field (.branch
        (.bind (xrayTls_ends _) fun _ _ => .pure _) (.pure _)))))) ?_
    rw [Value.optional_of_ne_absent hthere, XrayTls]
    by_cases hon : ((tls.get "reality").get "enabled").isTruthy = true
    · have hasked := Value.isNothing_of_get (Value.ne_absent_of_isTruthy hon)
      simp only [hon, hasked, if_true, true_and, true_implies, and_true]
      tauto
    · simp only [hon, if_false, false_implies, and_true, Bool.false_eq_true]
      split <;> tauto

theorem speakable_of_isText {s : String} (h : isText v s = true) : v.speakable = true := by
  cases v <;> first | rfl | cases h

theorem xrayTransportField_ends {t : Value} (ht : t.isNothing = false) (type : Value) :
    EndsIff (xrayTransportField t type) (type.speakable = true) := by
  refine .ite (fun hquic => ?_) fun _ => ?_
  · exact .of_iff (.pure _) (by simp [speakable_of_isText hquic])
  · exact .of_iff (.bind .display fun _ _ => .bind (xrayTransport_ends t type) fun _ _ => .pure _)
      (by simp [ht])

/-- The stream of a record that Xray gets through with. Security counts only where there is a
transport or it is switched on. -/
structure XrayStream (v : Value) : Prop where
  transport : (v.get "transport").Optional fun t => (t.get "type").speakable = true
  tls : v.get "tls" ≠ .null
  security : v.get "transport" ≠ .absent ∨ ((v.get "tls").get "enabled").isTruthy = true →
    (v.get "tls").Optional XrayTls

theorem xrayStream_ends (v : Value) : EndsIff (xrayStream v) (XrayStream v) := by
  unfold xrayStream
  dsimp only
  split
  · next habsent =>
    refine .of_iff (.switchedOn (.branch (.bind (xraySecurity_ends _) fun _ _ => .pure _)
      (.pure _))) ⟨fun ⟨htls, hon⟩ => ⟨by simp [habsent, Value.Optional], htls, fun h => ?_⟩,
        fun h => ⟨h.tls, ?_⟩⟩
    · have htruthy := h.resolve_left (absurd habsent)
      exact (if_pos htruthy ▸ hon).1
    · split
      · next htruthy => exact ⟨h.security (.inr htruthy), trivial⟩
      · trivial
  · next hthere =>
    by_cases hasked : (v.get "transport").isNothing = false
    · refine .of_iff (.field (.bind (xrayTransportField_ends hasked _) fun _ _ =>
        .bind (xraySecurity_ends _) fun _ _ => .pure _)) ⟨fun ⟨_, htype, hsecurity, _⟩ => ?_,
          fun h => ⟨hasked, (h.transport.2 hthere), h.security (.inl hthere), trivial⟩⟩
      exact ⟨(Value.optional_of_ne_absent hthere).2 ⟨hasked, htype⟩, hsecurity.1,
        fun _ => hsecurity⟩
    · refine .of_iff (.fault (by simpa [field_ends] using hasked)) (iff_of_false id fun h => ?_)
      exact hasked ((Value.optional_of_ne_absent hthere).1 h.transport).1

theorem tellMultiplex_ends (multiplex : Value) (place : String) :
    EndsIff (tellMultiplex multiplex place) (multiplex ≠ .null) := by
  unfold tellMultiplex
  split
  · exact .of_iff (.pure _) (by simp)
  · next hthere =>
    exact .of_iff (.field (.note _)) (by simpa [isNothing_eq_false] using fun _ => hthere)

theorem tellOptions_ends (type : Value) (options : Fields) (place : String) :
    EndsIff (tellOptions type options place) True :=
  .forM fun _ => .ite (fun _ => .pure _) fun _ => .note _

/-- The records that Xray gets through with, of those whose protocol it can serve. -/
structure XrayWritable (v : Value) : Prop where
  users : ∀ u ∈ (v.get "users").items?.getD [], u.isNothing = false
  stream : XrayStream v
  multiplex : v.get "multiplex" ≠ .null

theorem xray_ends {tag : String} {us : List Value} {os : Fields} (h : Top v tag us os)
    (index : Nat) : EndsIff (xray v index)
      (isOneOf (v.get "type") Xray.unservable = false → XrayWritable v) := by
  have hlabel : EndsIff (label (v.get "tag") index) True := label_ends (by rw [h.tag]; rfl) index
  have hoptions : (v.get "options").isNothing = false := by rw [h.options]; rfl
  have htype : (v.get "type").speakable = true := by
    obtain ⟨type, htype⟩ := h.type
    rw [htype]
    rfl
  refine .of_iff (.field (.bind hlabel fun _ place => .branch (.bind .display fun _ _ =>
    .bind (.note _) fun _ _ => .pure _) (.bind (xraySettings_ends h.users hoptions _) fun _ _ =>
      .bind (xrayStream_ends v) fun _ _ => .bind (tellMultiplex_ends _ _) fun _ _ =>
        .bind (tellOptions_ends _ _ _) fun _ _ => .pure _))) ?_
  have hitems : (v.get "users").items?.getD [] = us := by rw [h.users]; rfl
  cases hserved : isOneOf (v.get "type") Xray.unservable with
  | true => simp [h.isNothing, htype]
  | false =>
      simp only [h.isNothing, true_and, Bool.false_eq_true, if_false, true_implies, and_true]
      exact ⟨fun ⟨husers, hstream, hmultiplex⟩ => ⟨hitems ▸ husers, hstream, hmultiplex⟩,
        fun hw => ⟨hitems ▸ hw.users, hw.stream, hw.multiplex⟩⟩

end Unchecked

end ProxyFleet
