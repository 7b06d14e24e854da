import ProxyFleet.Proofs.Conversion.Again
import ProxyFleet.Proofs.Conversion.Destinations
import ProxyFleet.Proofs.Conversion.Detection
import ProxyFleet.Proofs.Inbound.Malformed
import ProxyFleet.Proofs.Value.Digits

/-!
# Ports and rates that are no numbers

A number that is written as a number is made whole before it is taken for a port or a
rate, and one that is out of range gives zero. Digits in a text are not looked at again
once they are read, so there the same port is an infinity, which a written file can only
have as null. `Engine.IsOutOfRange` tells the elements this happens to.
-/

namespace ProxyFleet

open Decimal

namespace Inbound

/-- The server that Reality hands visitors to. -/
def handshake? (i : Inbound) : Option Handshake := (i.tls.bind (·.reality)).bind (·.handshake)

def brutal? (i : Inbound) : Option Brutal := i.multiplex.bind (·.brutal)

theorem forall_numbers {i : Inbound} {P : Number → Prop} : (∀ n ∈ i.numbers, P n) ↔
    P i.listenPort ∧ (∀ h ∈ i.handshake?, P h.serverPort) ∧
      ∀ b ∈ i.brutal?, P b.upMbps ∧ P b.downMbps := by
  have hnumbers : i.numbers = i.listenPort :: (i.handshake?.toList.map (·.serverPort) ++
      i.brutal?.toList.flatMap fun b => [b.upMbps, b.downMbps]) := rfl
  rw [hnumbers, List.forall_mem_cons, List.forall_mem_append]
  generalize i.handshake? = h
  generalize i.brutal? = b
  cases h <;> cases b <;> simp

end Inbound

/-! ## Fields that are picked out -/

theorem Value.isFinite_field {v : Value} {n : String} :
    (∀ fs ∈ v.fields?, (Fields.get fs n).asInt.isFinite = true) ↔ ¬ (v.get n).IsOutOfRange := by
  cases v with
  | obj fs =>
    rw [← isFinite_asInt]
    exact ⟨fun h => h fs rfl, fun h gs hgs => by cases hgs; exact h⟩
  | _ => exact iff_of_true nofun fun ⟨_, _, hd, _⟩ => nomatch hd

namespace SingBox

variable {el : Fields} {i : Inbound} {index : Nat}

/-- A handshake as it is read from its fields. -/
def handshakeOf (fs : Fields) : Handshake :=
  ⟨textOf fs "server", (Fields.get fs "server_port").asInt⟩

/-- A rate as it is read from its fields. -/
def brutalOf (fs : Fields) : Brutal :=
  ⟨(Fields.get fs "enabled").asBool, (Fields.get fs "up_mbps").asInt,
    (Fields.get fs "down_mbps").asInt⟩

theorem readReality_handshake (v : Value) (serverName place : String) :
    (readReality v serverName place).value.bind (·.handshake) =
      (v.at ["handshake"]).fields?.map handshakeOf := by
  rcases v with _ | _ | _ | _ | _ | _ | _ | ⟨f, fs⟩
  case obj.cons =>
    change (readHandshake (Fields.get (f :: fs) "handshake") place).value = _
    rw [Value.at_obj]
    cases Fields.get (f :: fs) "handshake" <;> rfl
  all_goals rfl

theorem readTls_handshake (v : Value) (place : String) :
    ((readTls v place).value.bind (·.reality)).bind (·.handshake) =
      (v.at ["reality", "handshake"]).fields?.map handshakeOf := by
  rcases v with _ | _ | _ | _ | _ | _ | _ | ⟨f, fs⟩
  case obj.cons => exact readReality_handshake (Fields.get (f :: fs) "reality") _ place
  all_goals rfl

theorem readMultiplex_rates (v : Value) (place : String) :
    (readMultiplex v place).value.bind (·.brutal) =
      (v.at ["brutal"]).fields?.map brutalOf := by
  rcases v with _ | _ | _ | _ | _ | _ | _ | ⟨f, fs⟩
  case obj.cons =>
    change (readBrutal (Fields.get (f :: fs) "brutal") place).value = _
    rw [Value.at_obj]
    cases Fields.get (f :: fs) "brutal" <;> rfl
  all_goals rfl

end SingBox

namespace Xray

/-- A destination with a port that is out of the range of doubles: it is digits alone, or its last
colon is followed by digits. -/
def IsOutOfRange (dest : String) : Prop :=
  AreDigits dest.toList ∧ Number.rangeLimit ≤ ofDigits dest.toList ∨
    ∃ host, ∃ d : DigitText, dest.toList = host ++ ':' :: d.chars ∧ ':' ∉ d.chars ∧ d.IsOutOfRange

/-- The port of a destination is finite unless its digits are out of range. -/
theorem isFinite_splitDestination {dest : String} :
    (splitDestination dest).serverPort.isFinite = true ↔ ¬ IsOutOfRange dest := by
  by_cases hcolon : ':' ∈ dest.toList
  · obtain ⟨host, port, hdest, hport⟩ := exists_last_append hcolon
    have hsplit : splitLast? ':' (host ++ ':' :: port) = some (host, port) :=
      splitLast?_append hport
    rw [splitDestination, hdest, hsplit]
    dsimp only
    constructor
    · rintro hfinite (⟨hdigits, -⟩ | ⟨host', d, hd, hrest, hrange⟩)
      · exact absurd (hdigits.2 _ hcolon) (by decide)
      · have hsame := hsplit
        rw [← hdest, hd, splitLast?_append hrest] at hsame
        injection hsame with hsame
        injection hsame with _ hport'
        rw [← hport', d.ofLeadingDigits?_chars, Option.getD_some, d.isFinite_number] at hfinite
        exact hfinite hrange
    · intro hrange
      cases hread : Number.ofLeadingDigits? (port.dropWhile isBlank) with
      | none => exact isFinite_defaultPort
      | some n =>
        obtain ⟨d, rfl, rfl⟩ := exists_digitText hread
        rw [Option.getD_some, d.isFinite_number]
        exact fun hout => hrange (Or.inr ⟨host, d, hdest, hport, hout⟩)
  · have hnone : ¬ ∃ host, ∃ d : DigitText, dest.toList = host ++ ':' :: d.chars ∧
        ':' ∉ d.chars ∧ d.IsOutOfRange := fun ⟨host, d, hd, _⟩ => hcolon (by rw [hd]; simp)
    rw [splitDestination, splitLast?_none hcolon, IsOutOfRange, or_iff_left hnone]
    dsimp only
    split
    · next hdigits =>
      rw [Number.isFinite_ofDecimal, ← Nat.not_le]
      have hall : AreDigits dest.toList := by
        simpa [AreDigits] using hdigits
      exact not_congr (and_iff_right hall).symm
    · next hdigits =>
      refine iff_of_true isFinite_defaultPort fun h => hdigits ?_
      simpa [AreDigits] using h.1

/-- The server that the destination of a listener names. -/
def destinationServer (dest : String) : Option Handshake :=
  if dest = "" then none else some (splitDestination dest)

theorem isFinite_destinationServer {dest : String} :
    (∀ s ∈ destinationServer dest, s.serverPort.isFinite = true) ↔ ¬ IsOutOfRange dest := by
  rw [← isFinite_splitDestination, destinationServer]
  split
  · next hempty =>
    rw [hempty]
    exact iff_of_true nofun isFinite_defaultPort
  · simp

theorem readSecurity_handshake (stream : Fields) (security place : String) :
    ((readSecurity stream security place).value.bind (·.reality)).bind (·.handshake) =
      (if security = "reality" then (Fields.get stream "realitySettings").fields? else none).bind
        fun settings => destinationServer (destinationOf settings) := by
  unfold readSecurity
  dsimp only
  split
  · next hnone => rcases Bool.or_eq_true_iff.1 hnone with h | h <;> rw [of_decide_eq_true h] <;> rfl
  split
  · next htls =>
    rw [htls]
    split <;> rfl
  split
  · cases Fields.get stream "realitySettings" <;> rfl
  · rfl

theorem usedDestination_eq (el : Value) : usedDestination el =
    (if ((el.get "streamSettings").get "security").asText = "reality" then
      ((el.get "streamSettings").get "realitySettings").fields? else none).map destinationOf := by
  unfold usedDestination
  by_cases hreality : ((el.get "streamSettings").get "security").asText = "reality"
  · simp only [if_pos hreality]
    cases (el.get "streamSettings").get "realitySettings" <;> rfl
  · simp only [if_neg hreality]
    cases (el.get "streamSettings").get "realitySettings" <;> rfl

theorem readStream_handshake (el : Value) (place : String) :
    ((readStream (el.get "streamSettings") place).value.2.bind (·.reality)).bind (·.handshake) =
      (usedDestination el).bind destinationServer := by
  rw [usedDestination_eq, Option.bind_map]
  cases el.get "streamSettings" with
  | obj stream => exact readSecurity_handshake stream (textOf stream "security") place
  | _ => rfl

end Xray

namespace Engine

variable {e : Engine} {el : Value} {i : Inbound} {index : Nat}

theorem exists_fields_of_read (hread : (e.readElement el index).value = some i) :
    ∃ fs, el = .obj fs ∧ textOf fs e.typeField ≠ "" ∧ (e.readInbound fs index).value = some i := by
  have hkeeps : e.keeps el = true := by
    by_contra hskipped
    rw [readElement_skipped (Bool.eq_false_iff.2 hskipped)] at hread
    cases hread
  cases el with
  | obj fs =>
    exact ⟨fs, rfl, by simpa [keeps, Value.isRecord, textOf, Value.get] using hkeeps, hread⟩
  | _ => cases hkeeps

/-- Where an engine has the numbers of a listener as numbers. -/
def numberFields : Engine → List (List String × (Inbound → Option Number))
  | .singBox => [(["listen_port"], fun i => some i.listenPort),
      (["tls", "reality", "handshake", "server_port"], fun i => i.handshake?.map (·.serverPort)),
      (["multiplex", "brutal", "up_mbps"], fun i => i.brutal?.map (·.upMbps)),
      (["multiplex", "brutal", "down_mbps"], fun i => i.brutal?.map (·.downMbps))]
  | .xray => [(["port"], fun i => some i.listenPort)]

/-- An element with digits that are out of range: in a text where a number belongs or, for Xray, in
its destination. -/
def IsOutOfRange (e : Engine) (el : Value) : Prop :=
  (∃ f ∈ e.numberFields, (el.at f.1).IsOutOfRange) ∨
    e = .xray ∧ ∃ dest ∈ Xray.usedDestination el, Xray.IsOutOfRange dest

end Engine

theorem SingBox.readInbound_numbers {el : Fields} {i : Inbound} {index : Nat}
    (hnamed : textOf el "type" ≠ "") (hread : (SingBox.readInbound el index).value = some i) :
    i.listenPort = ((Value.obj el).at ["listen_port"]).asInt ∧
      i.handshake? = ((Value.obj el).at ["tls", "reality", "handshake"]).fields?.map handshakeOf ∧
      i.brutal? = ((Value.obj el).at ["multiplex", "brutal"]).fields?.map brutalOf := by
  obtain ⟨place, hvalue⟩ := readInbound_value rfl hnamed index
  obtain rfl := Option.some.inj (hvalue.symm.trans hread)
  exact ⟨rfl, readTls_handshake (Fields.get el "tls") place,
    readMultiplex_rates (Fields.get el "multiplex") place⟩

theorem Xray.readInbound_numbers {el : Fields} {i : Inbound} {index : Nat}
    (hnamed : textOf el "protocol" ≠ "") (hread : (Xray.readInbound el index).value = some i) :
    i.listenPort = ((Value.obj el).at ["port"]).asInt ∧
      i.handshake? = (usedDestination (.obj el)).bind destinationServer ∧ i.brutal? = none := by
  obtain ⟨place, hvalue⟩ := readInbound_value hnamed index
  obtain rfl := Option.some.inj (hvalue.symm.trans hread)
  exact ⟨rfl, readStream_handshake (.obj el) place, rfl⟩

namespace Engine

variable {e : Engine} {el : Value} {i : Inbound} {index : Nat}

/-- The numbers that are read of an element are finite unless its digits are out of range. -/
theorem isFinite_numbers (hread : (e.readElement el index).value = some i) :
    (∀ n ∈ i.numbers, n.isFinite = true) ↔ ¬ e.IsOutOfRange el := by
  obtain ⟨fs, rfl, hnamed, hread⟩ := exists_fields_of_read hread
  rw [Inbound.forall_numbers]
  cases e with
  | singBox =>
    obtain ⟨hport, hhandshake, hbrutal⟩ := SingBox.readInbound_numbers hnamed hread
    rw [hport, hhandshake, hbrutal, Option.forall_mem_map, Option.forall_mem_map]
    simp only [IsOutOfRange, numberFields, List.exists_mem_cons_iff, List.not_mem_nil,
      false_and, exists_false, or_false, reduceCtorEq, not_or]
    rw [forall₂_and]
    exact and_congr Value.isFinite_asInt (and_congr Value.isFinite_field
      (and_congr Value.isFinite_field Value.isFinite_field))
  | xray =>
    obtain ⟨hport, hhandshake, hbrutal⟩ := Xray.readInbound_numbers hnamed hread
    rw [hport, hhandshake, hbrutal]
    have hservers : (∀ s ∈ (Xray.usedDestination (.obj fs)).bind Xray.destinationServer,
        s.serverPort.isFinite = true) ↔
        ¬ ∃ dest ∈ Xray.usedDestination (.obj fs), Xray.IsOutOfRange dest := by
      cases Xray.usedDestination (.obj fs) with
      | none => exact iff_of_true nofun nofun
      | some dest => simpa using Xray.isFinite_destinationServer
    simp only [IsOutOfRange, numberFields, List.exists_mem_cons_iff, List.not_mem_nil,
      false_and, exists_false, or_false, true_and, not_or]
    exact and_congr Value.isFinite_asInt ((and_iff_left nofun).trans hservers)

end Engine

/-! ## Numbers in a written file -/

/-- What is read where a number was written. -/
def Number.orNull (n : Number) : Value := if n.isFinite then .num n else .null

theorem Number.Counted.reread {n : Number} (h : n.Counted) : (Value.num n).reread = n.orNull := by
  rw [Value.reread, orNull]
  split
  · next hfinite => exact reread_eq h.isDouble hfinite
  · next hinfinite => exact if_neg hinfinite

theorem Number.orNull_eq_null {n : Number} : n.orNull = .null ↔ n.isFinite = false := by
  rw [orNull]
  split <;> simp [*]

theorem Value.ofOption_orNull {o : Option Number} :
    ofOption Number.orNull o = .null ↔ ∃ n ∈ o, n.isFinite = false := by
  cases o with
  | none => simp [ofOption]
  | some n => simpa [ofOption] using Number.orNull_eq_null

namespace Value

variable {α β : Type}

theorem at_absent (path : List String) : absent.at path = absent := by
  induction path with
  | nil => rfl
  | cons n ns ih => exact ih

theorem at_ofOption (f : α → Value) (o : Option α) (path : List String) :
    (ofOption f o).at path = ofOption (fun a => (f a).at path) o := by
  cases o with
  | none => exact at_absent path
  | some a => rfl

theorem ofOption_bind (f : β → Value) (g : α → Option β) (o : Option α) :
    ofOption (fun a => ofOption f (g a)) o = ofOption f (o.bind g) := by
  cases o <;> rfl

theorem ofOption_map (f : β → Value) (g : α → β) (o : Option α) :
    ofOption f (o.map g) = ofOption (fun a => f (g a)) o := by
  cases o <;> rfl

theorem ofOption_congr {f g : α → Value} {o : Option α} (h : ∀ a ∈ o, f a = g a) :
    ofOption f o = ofOption g o := by
  cases o with
  | none => rfl
  | some a => exact h a rfl

end Value

/-- A number that is a field of its own. -/
theorem Fields.Holds.at_number {fs : Fields} {name : String} {n : Number}
    (h : Fields.Holds fs name (.num n)) (hn : n.Counted) :
    (Value.obj (Value.rereadFields [] fs)).at [name] = n.orNull :=
  (h.reread nofun).trans hn.reread

section Written

variable {i : Inbound} (hcounted : ∀ n ∈ i.numbers, n.Counted)

include hcounted

theorem SingBox.at_written (index : Nat) : ∀ f ∈ Engine.singBox.numberFields,
    (Value.obj (Value.rereadFields [] (SingBox.writeInbound i index).value)).at f.1 =
      .ofOption Number.orNull (f.2 i) := by
  obtain ⟨hport, hhandshake, hbrutal⟩ := Inbound.forall_numbers.1 hcounted
  have hserver : ∀ path, (Value.obj (Value.rereadFields [] (SingBox.writeInbound i index).value)).at
      ("tls" :: "reality" :: "handshake" :: path) = .ofOption (fun h : Handshake =>
        (Value.obj (Value.rereadFields [] [("server", .str h.server),
          ("server_port", .num h.serverPort)])).at path) i.handshake? := by
    intro path
    rw [Value.at_obj, (tls_written i index).reread_part]
    simp only [Value.at_ofOption, Value.at_obj, reality_reread, handshake_reread]
    rw [Inbound.handshake?, ← Value.ofOption_bind, ← Value.ofOption_bind]
  have hrates : ∀ path, (Value.obj (Value.rereadFields [] (SingBox.writeInbound i index).value)).at
      ("multiplex" :: "brutal" :: path) = .ofOption (fun b : Brutal =>
        (Value.obj (Value.rereadFields [] [("enabled", .bool b.enabled),
          ("up_mbps", .num b.upMbps), ("down_mbps", .num b.downMbps)])).at path) i.brutal? := by
    intro path
    have hholds := multiplex_written i index
    rw [funext writeMultiplex_eq] at hholds
    rw [Value.at_obj, hholds.reread_part]
    simp only [Value.at_ofOption, Value.at_obj, brutal_reread]
    rw [Inbound.brutal?, ← Value.ofOption_bind]
  simp only [Engine.numberFields, List.forall_mem_cons, Value.ofOption_map]
  refine ⟨(head_written i index (by decide)).at_number hport, ?_, ?_, ?_, nofun⟩
  · rw [hserver]
    refine Value.ofOption_congr fun h hh => ?_
    exact Fields.Holds.at_number (.get_of_nodup (by simp) _) (hhandshake h hh)
  · rw [hrates]
    refine Value.ofOption_congr fun b hb => ?_
    exact Fields.Holds.at_number (.get_of_nodup (by simp) _) (hbrutal b hb).1
  · rw [hrates]
    refine Value.ofOption_congr fun b hb => ?_
    exact Fields.Holds.at_number (.get_of_nodup (by simp) _) (hbrutal b hb).2

theorem Xray.at_written : ∀ f ∈ Engine.xray.numberFields,
    (Value.obj (Value.rereadFields [] (Xray.written i))).at f.1 =
      .ofOption Number.orNull (f.2 i) := by
  simp only [Engine.numberFields, List.forall_mem_cons]
  exact ⟨(head_holds i (by decide)).at_number (hcounted _ List.mem_cons_self), nofun⟩

end Written

/-! ## Files -/

namespace Noted

variable {α β : Type} {f : Nat → α → Noted (Option β)} {p : α → Bool} {R : α → β → Prop}
  {as : List α}

/-- The results of a function are those of the items that it has one for. -/
theorem filterMap_forall₂_filter
    (hkept : ∀ a ∈ as, p a = true → ∀ n, ∃ b, (f n a).value = some b ∧ R a b)
    (hskipped : ∀ a ∈ as, p a = false → ∀ n, (f n a).value = none) :
    List.Forall₂ R (as.filter p) (filterMap f as).value := by
  have hfrom : ∀ n, List.Forall₂ R (as.filter p) (filterMapFrom f n as).value := by
    induction as with
    | nil => exact fun _ => .nil
    | cons a as ih =>
      intro n
      have hrest := ih (fun b hb => hkept b (List.mem_cons_of_mem a hb))
        (fun b hb => hskipped b (List.mem_cons_of_mem a hb)) (n + 1)
      change List.Forall₂ R _ ((f n a).value.toList ++ (filterMapFrom f (n + 1) as).value)
      cases hp : p a with
      | true =>
        obtain ⟨b, hb, hR⟩ := hkept a List.mem_cons_self hp n
        rw [List.filter_cons_of_pos hp, hb]
        exact .cons hR hrest
      | false =>
        rw [List.filter_cons_of_neg (by simp [hp]), hskipped a List.mem_cons_self hp n]
        exact hrest
  exact hfrom 0

end Noted

theorem SingBox.IsRead.counted {i : Inbound} (h : IsRead i) : ∀ n ∈ i.numbers, n.Counted := by
  refine Inbound.forall_numbers.2 ⟨h.port, fun s hs => ?_, fun b hb => ?_⟩
  · obtain ⟨r, hr, hs⟩ := Option.bind_eq_some_iff.1 hs
    obtain ⟨t, ht, hr⟩ := Option.bind_eq_some_iff.1 hr
    exact (h.tls t ht r hr).port s hs
  · obtain ⟨m, hm, hb⟩ := Option.bind_eq_some_iff.1 hb
    exact ⟨(h.multiplex m hm b hb).up, (h.multiplex m hm b hb).down⟩

theorem Xray.counted_inbound {i : Inbound} (h : IsParsed i) (hbrutal : i.brutal? = none) :
    ∀ n ∈ i.numbers, n.Counted := by
  refine Inbound.forall_numbers.2 ⟨h.port, fun s hs => ?_, by simp [hbrutal]⟩
  obtain ⟨r, hr, hs⟩ := Option.bind_eq_some_iff.1 hs
  obtain ⟨t, ht, hr⟩ := Option.bind_eq_some_iff.1 hr
  exact ((h.security t ht).reality r hr).2 s hs

namespace Engine

variable {e : Engine} {file text : String} {found : Noted (List Inbound)}

theorem counted_numbers (h : e.read file text = .ok found) :
    ∀ i ∈ found.value, ∀ n ∈ i.numbers, n.Counted := by
  intro i hi
  obtain ⟨el, index, hsettled, hread⟩ := mem_read h hi
  cases e with
  | singBox => exact (SingBox.readInbound_isRead hsettled hread).counted
  | xray =>
    have hnamed : textOf el "protocol" ≠ "" := by
      intro hempty
      simp [readInbound, Xray.readInbound, hempty] at hread
    exact Xray.counted_inbound (Xray.readInbound_isParsed hsettled hread)
      (Xray.readInbound_numbers hnamed hread).2.2

/-- Whether a listener can be written for an engine. -/
def writes (e : Engine) (i : Inbound) : Bool :=
  match e with
  | .singBox => true
  | .xray => Xray.isServed i

section Written

variable {i : Inbound}

theorem writeInbound_some (hwrites : e.writes i = true) (hcounted : ∀ n ∈ i.numbers, n.Counted)
    (index : Nat) : ∃ native, (e.writeInbound i index).value = some native ∧
      ∀ f ∈ e.numberFields,
        (Value.obj native).reread.at f.1 = .ofOption Number.orNull (f.2 i) := by
  cases e with
  | singBox =>
    refine ⟨(SingBox.writeInbound i index).value, rfl, ?_⟩
    rw [Value.reread]
    exact SingBox.at_written hcounted index
  | xray =>
    have hserved : i.type ∉ Xray.unservable := by simpa [writes, Xray.isServed] using hwrites
    refine ⟨Xray.written i, by rw [writeInbound, Xray.writeInbound_written hserved], ?_⟩
    rw [Value.reread]
    exact Xray.at_written hcounted

theorem writeInbound_none (hwrites : e.writes i = false) (index : Nat) :
    (e.writeInbound i index).value = none := by
  cases e with
  | singBox => cases hwrites
  | xray =>
    have hserved : Xray.unservable.contains i.type = true := by
      simpa [writes, Xray.isServed] using hwrites
    rw [writeInbound, Xray.writeInbound, if_pos hserved]

end Written

/-- In a file that was written, the numbers of listeners are where they belong, and null stands
for those that are not finite. -/
theorem written_numbers {is : List Inbound} (e : Engine) (file : String)
    (h : ∀ i ∈ is, ∀ n ∈ i.numbers, n.Counted) : ∃ natives,
    ConfigFile.elements e file (convert is e).value = .ok natives ∧
      List.Forall₂ (fun i native => ∀ f ∈ e.numberFields,
        native.at f.1 = .ofOption Number.orNull (f.2 i)) (is.filter e.writes) natives := by
  refine ⟨_, ConfigFile.elements_inboundsText e file (e.write is).value, ?_⟩
  rw [List.forall₂_map_right_iff, write_eq]
  refine Noted.filterMap_forall₂_filter (fun i hi hwrites index => ?_) fun i _ hskipped index => ?_
  · obtain ⟨native, hnative, hnumbers⟩ := writeInbound_some hwrites (h i hi) index
    exact ⟨.obj native, by rw [Noted.bind_value, hnative]; rfl, hnumbers⟩
  · rw [Noted.bind_value, writeInbound_none hskipped]
    rfl

/-- The numbers of the listeners in a file are whole if they are finite. They are so unless digits
in the element are out of range, and then one of them is an infinity. In a file that is written of
the listeners, for whatever engine, null stands for a number if and only if it is not finite. -/
theorem numbers_finite_unless_out_of_range (h : e.read file text = .ok found) :
    (∀ i ∈ found.value, ∀ n ∈ i.numbers, n.isFinite = true → n.isWhole = true) ∧
    (∃ els, ConfigFile.elements e file text = .ok els ∧
      List.Forall₂ (fun x i => (∀ n ∈ i.numbers, n.isFinite = true) ↔ ¬ e.IsOutOfRange x.1)
        (els.zipIdx.filter (e.keeps ·.1)) found.value) ∧
    ∀ target : Engine, ∃ natives,
      ConfigFile.elements target defaultFile (convert found.value target).value = .ok natives ∧
      List.Forall₂ (fun i native => ∀ f ∈ target.numberFields,
          native.at f.1 = .ofOption Number.orNull (f.2 i) ∧
          (native.at f.1 = .null ↔ ∃ n ∈ f.2 i, n.isFinite = false))
        (found.value.filter target.writes) natives := by
  have hcounted := counted_numbers h
  obtain ⟨els, hels, hread, -, -⟩ := read_accounts h
  refine ⟨fun i hi n hn => (hcounted i hi n hn).isWhole,
    ⟨els, hels, hread.imp fun x i hi => isFinite_numbers hi.read⟩, fun target => ?_⟩
  obtain ⟨natives, hnatives, hwritten⟩ := written_numbers target defaultFile hcounted
  refine ⟨natives, hnatives, hwritten.imp fun i native hnumbers f hf => ?_⟩
  rw [hnumbers f hf]
  exact ⟨rfl, Value.ofOption_orNull⟩

/-- A listener with a port in a text, and one whose port has 310 digits. -/
def longPorts : List Value :=
  ["443", String.ofList ('1' :: List.replicate 309 '0')].map fun port =>
    .obj [("type", .str "vless"), ("listen_port", .str port)]

def longPortFile : String := inboundsText longPorts

theorem read_longPortFile : ∃ found, singBox.read "config.json" longPortFile = .ok found ∧
    found.value.map Inbound.numbers = [[443], [.infinite false]] := by
  rw [read_eq, longPortFile, ConfigFile.elements_inboundsText]
  exact ⟨_, rfl, by decide +kernel⟩

theorem forall₂_pair_right {α β : Type} {R : α → β → Prop} {as : List α} {b c : β} :
    List.Forall₂ R as [b, c] ↔ ∃ x y, as = [x, y] ∧ R x b ∧ R y c := by
  constructor
  · rintro (_ | ⟨hx, _ | ⟨hy, ⟨⟩⟩⟩)
    exact ⟨_, _, rfl, hx, hy⟩
  · rintro ⟨x, y, rfl, hx, hy⟩
    exact .cons hx (.cons hy .nil)

theorem numbers_finite_unless_out_of_range_long : ∃ found els x y natives,
    singBox.read "config.json" longPortFile = .ok found ∧
    ConfigFile.elements .singBox "config.json" longPortFile = .ok els ∧
    els.zipIdx.filter (singBox.keeps ·.1) = [x, y] ∧
    ¬ singBox.IsOutOfRange x.1 ∧ singBox.IsOutOfRange y.1 ∧
    ConfigFile.elements .singBox defaultFile (convert found.value .singBox).value = .ok natives ∧
    natives.map (·.at ["listen_port"]) = [.num 443, .null] := by
  obtain ⟨found, hread, hnumbers⟩ := read_longPortFile
  obtain ⟨i, is, hfound, hi, his⟩ := List.map_eq_cons_iff.1 hnumbers
  obtain ⟨j, js, rfl, hj, hnone⟩ := List.map_eq_cons_iff.1 his
  obtain rfl := List.map_eq_nil_iff.1 hnone
  obtain ⟨-, ⟨els, hels, hrange⟩, hwritten⟩ := numbers_finite_unless_out_of_range hread
  obtain ⟨natives, hnatives, hfields⟩ := hwritten .singBox
  rw [hfound] at hrange hfields
  obtain ⟨x, y, hels', hx, hy⟩ := forall₂_pair_right.1 hrange
  obtain ⟨v, w, rfl, hv, hw⟩ := forall₂_pair_right.1 hfields.flip
  have hv := (hv _ List.mem_cons_self).1
  have hw := (hw _ List.mem_cons_self).1
  refine ⟨found, els, x, y, _, hread, hels, hels', hx.1 ?_, ?_, hnatives, ?_⟩
  · rw [hi]
    decide +kernel
  · by_contra hrange
    have hinfinite := hy.2 hrange (.infinite false)
    rw [hj] at hinfinite
    exact absurd (hinfinite List.mem_cons_self) (by decide)
  · have hi : i.listenPort = 443 := (List.cons.inj hi).1
    have hj : j.listenPort = .infinite false := (List.cons.inj hj).1
    rw [List.map_cons, List.map_cons, hv, hw]
    change [i.listenPort.orNull, j.listenPort.orNull] = _
    have hfinite : (443 : Number).isFinite = true := by decide +kernel
    rw [hi, hj, Number.orNull, if_pos hfinite]
    rfl

/-- A port of 310 digits is read as an infinity, so not all numbers are finite. -/
theorem numbers_not_finite : ¬ (∀ (e : Engine) (file text : String) (found : Noted (List Inbound)),
    e.read file text = .ok found →
      (∀ i ∈ found.value, ∀ n ∈ i.numbers, n.isFinite = true ∧ n.isWhole = true) ∧
      ∀ target natives, ConfigFile.elements target defaultFile (convert found.value target).value =
        .ok natives → ∀ native ∈ natives, ∀ f ∈ target.numberFields, native.at f.1 ≠ .null) := by
  intro h
  obtain ⟨found, hread, hnumbers⟩ := read_longPortFile
  have hmem : [Number.infinite false] ∈ found.value.map Inbound.numbers := by
    rw [hnumbers]
    exact List.mem_cons_of_mem _ List.mem_cons_self
  obtain ⟨i, hi, hnumber⟩ := List.mem_map.1 hmem
  have hfinite := ((h .singBox _ _ found hread).1 i hi (.infinite false)
    (hnumber ▸ List.mem_cons_self)).1
  cases hfinite

end Engine

end ProxyFleet
