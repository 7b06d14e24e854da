import ProxyFleet.Proofs.Inbound.Files

/-!
# What is noted of a listener

Every note about a part of a listener begins with the name of the listener. What follows
is a complaint, and the complaints about a listener are a function of the element it is
read from: `Engine.complaints` lists them, `Engine.readElement_notes` says that there are
no others, and `Engine.read_eq` puts the elements of a file together again.
-/

namespace ProxyFleet

namespace Noted

variable {α β : Type}

@[simp] theorem map_notes (f : α → β) (x : Noted α) : (f <$> x).notes = x.notes :=
  List.append_nil x.notes

@[simp] theorem map_value (f : α → β) (x : Noted α) : (f <$> x).value = f x.value := rfl

@[simp] theorem note_notes (text : String) : (note text).notes = [text] := rfl

/-- Something that is noted before the rest unless all is well. -/
theorem notes_unless (c : Bool) (text : String) (x : Noted α) :
    (if c = true then do note text; x else x).notes =
      (if c = true then [text] else []) ++ x.notes := by
  split <;> rfl

/-! ## Lists -/

theorem filterMapFrom_eq (f : Nat → α → Noted (Option β)) (as : List α) (i : Nat) :
    filterMapFrom f i as = ⟨(as.zipIdx i).filterMap fun a => (f a.2 a.1).value,
      (as.zipIdx i).flatMap fun a => (f a.2 a.1).notes⟩ := by
  induction as generalizing i with
  | nil => rfl
  | cons a as ih =>
      rw [filterMapFrom, ih, List.zipIdx_cons, List.filterMap_cons, List.flatMap_cons]
      cases (f i a).value <;> rfl

/-- What is found in a list, and the notes on it, come from its items one by one. -/
theorem filterMap_eq (f : Nat → α → Noted (Option β)) (as : List α) :
    filterMap f as = ⟨as.zipIdx.filterMap fun a => (f a.2 a.1).value,
      as.zipIdx.flatMap fun a => (f a.2 a.1).notes⟩ := filterMapFrom_eq f as 0

end Noted

/-! ## Complaints -/

/-- A complaint, unless all is well. -/
def objection (fine : Bool) (complaint : String) : List String := if fine then [] else [complaint]

/-- Complaints as they are noted of a listener. -/
def notedOf (place : String) (complaints : List String) : List String :=
  complaints.map (place ++ ": " ++ ·)

@[simp] theorem objection_true (c : String) : objection true c = [] := rfl

@[simp] theorem objection_false (c : String) : objection false c = [c] := rfl

@[simp] theorem notedOf_nil (place : String) : notedOf place [] = [] := rfl

@[simp] theorem notedOf_cons (place c : String) (cs : List String) :
    notedOf place (c :: cs) = (place ++ ": " ++ c) :: notedOf place cs := rfl

theorem notedOf_append (place : String) (cs ds : List String) :
    notedOf place (cs ++ ds) = notedOf place cs ++ notedOf place ds := List.map_append

/-- The complaints about the items of a list that are no records. -/
def itemComplaints (name : Nat → String) (v : Value) : List String :=
  match v with
  | .arr xs => xs.zipIdx.flatMap fun x =>
      objection x.1.isRecord (name x.2 ++ " is not an object; skipped")
  | _ => []

/-- The complaints about a list of clients. -/
def listComplaints (name : String) (item : Nat → String) (v : Value) : List String :=
  objection (v.items?.isSome || v.isNothing) (name ++ " is not an array; users skipped")
    ++ itemComplaints item v

/-- Records in a list are read without a note, and the others are complained about. -/
theorem filterMap_records_notes {α : Type} (f : Nat → Value → Noted (Option α))
    (name : Nat → String) (place : String) (hrecord : ∀ i fs, (f i (.obj fs)).notes = [])
    (hother : ∀ i v, v.isRecord = false →
      (f i v).notes = [place ++ ": " ++ (name i ++ " is not an object; skipped")])
    (xs : List Value) :
    (Noted.filterMap f xs).notes = notedOf place (itemComplaints name (.arr xs)) := by
  rw [Noted.filterMap_eq, itemComplaints, notedOf, List.map_flatMap]
  refine congrArg (xs.zipIdx.flatMap ·) (funext fun ⟨v, i⟩ => ?_)
  cases v with
  | obj fs => exact hrecord i fs
  | _ => exact hother i _ rfl

/-- The complaint about a part that is no record, unless null or nothing stands for it. -/
def recordComplaints (v : Value) (complaint : String) : List String :=
  objection (v.isRecord || v.isNothing) complaint

namespace SingBox

/-- How a client of a listener is named. -/
def userName (i : Nat) : String := "user #" ++ toString i

def handshakeComplaints (v : Value) : List String :=
  objection (v.isRecord || v.isAbsent)
    "\"tls.reality.handshake\" is not an object; handshake skipped"

def realityComplaints (v : Value) : List String :=
  recordComplaints v "\"tls.reality\" is not an object; Reality skipped"
    ++ handshakeComplaints (v.get "handshake")

def tlsComplaints (v : Value) : List String :=
  recordComplaints v "\"tls\" is not an object; TLS skipped" ++ realityComplaints (v.get "reality")

def brutalComplaints (v : Value) : List String :=
  objection (v.isRecord || v.isAbsent) "\"multiplex.brutal\" is not an object; brutal skipped"

def multiplexComplaints (v : Value) : List String :=
  recordComplaints v "\"multiplex\" is not an object; multiplex skipped"
    ++ brutalComplaints (v.get "brutal")

/-- A transport that says anything says its type. -/
def transportComplaints (v : Value) : List String :=
  recordComplaints v "\"transport\" is not an object; transport skipped"
    ++ objection ((v.fields?.getD []).isEmpty || (v.get "type").asText != "")
      "\"transport.type\" is missing; transport skipped"

/-- The complaints about a listener that has a type. -/
def complaints (el : Value) : List String :=
  listComplaints "\"users\"" userName (el.get "users") ++ tlsComplaints (el.get "tls")
    ++ multiplexComplaints (el.get "multiplex") ++ transportComplaints (el.get "transport")

theorem readUsers_notes (type : String) (v : Value) (place : String) :
    (readUsers type v place).notes = notedOf place (listComplaints "\"users\"" userName v) := by
  cases v with
  | arr us =>
      refine filterMap_records_notes _ userName place (fun _ _ => rfl) (fun i v hv => ?_) us
      have hname : place ++ ": user #" ++ toString i ++ " is not an object; skipped" =
          place ++ ": " ++ (userName i ++ " is not an object; skipped") := by
        rw [userName, show ": user #" = ": " ++ "user #" from rfl]
        simp only [String.append_assoc]
      cases v with
      | obj => cases hv
      | _ => exact congrArg (fun note => [note]) hname
  | _ => simp [readUsers, listComplaints, itemComplaints, Value.items?, Value.isNothing,
      String.append_assoc]

theorem readHandshake_notes (v : Value) (place : String) :
    (readHandshake v place).notes = notedOf place (handshakeComplaints v) := by
  cases v <;> simp [readHandshake, handshakeComplaints, Value.isRecord, Value.isAbsent,
    String.append_assoc]

theorem readReality_notes (v : Value) (serverName place : String) :
    (readReality v serverName place).notes = notedOf place (realityComplaints v) := by
  rcases v with _ | _ | _ | _ | _ | _ | _ | ⟨f, fs⟩
  case obj.cons =>
    exact (List.append_nil _).trans (readHandshake_notes (Fields.get (f :: fs) "handshake") place)
  all_goals
    simp [readReality, recordOr, realityComplaints, recordComplaints, handshakeComplaints,
      Value.get, Fields.get, Value.isRecord, Value.isNothing, Value.isAbsent, String.append_assoc]

theorem readTls_notes (v : Value) (place : String) :
    (readTls v place).notes = notedOf place (tlsComplaints v) := by
  rcases v with _ | _ | _ | _ | _ | _ | _ | ⟨f, fs⟩
  case obj.cons =>
    exact (List.append_nil _).trans (readReality_notes (Fields.get (f :: fs) "reality") _ place)
  all_goals
    simp [readTls, recordOr, tlsComplaints, realityComplaints, recordComplaints,
      handshakeComplaints, Value.get, Fields.get, Value.isRecord, Value.isNothing, Value.isAbsent,
      String.append_assoc]

theorem readBrutal_notes (v : Value) (place : String) :
    (readBrutal v place).notes = notedOf place (brutalComplaints v) := by
  cases v <;> simp [readBrutal, brutalComplaints, Value.isRecord, Value.isAbsent,
    String.append_assoc]

theorem readMultiplex_notes (v : Value) (place : String) :
    (readMultiplex v place).notes = notedOf place (multiplexComplaints v) := by
  rcases v with _ | _ | _ | _ | _ | _ | _ | ⟨f, fs⟩
  case obj.cons =>
    exact (List.append_nil _).trans (readBrutal_notes (Fields.get (f :: fs) "brutal") place)
  all_goals
    simp [readMultiplex, recordOr, multiplexComplaints, recordComplaints, brutalComplaints,
      Value.get, Fields.get, Value.isRecord, Value.isNothing, Value.isAbsent, String.append_assoc]

theorem readTransport_notes (v : Value) (place : String) :
    (readTransport v place).notes = notedOf place (transportComplaints v) := by
  rcases v with _ | _ | _ | _ | _ | _ | _ | ⟨f, fs⟩
  case obj.cons =>
    have hasked : ((Value.obj (f :: fs)).get "type").asText = textOf (f :: fs) "type" := rfl
    rw [transportComplaints, hasked]
    by_cases htype : textOf (f :: fs) "type" = ""
    · simp [readTransport, recordOr, recordComplaints, Value.isRecord, Value.fields?, htype,
        String.append_assoc]
    · rw [bne_iff_ne.2 htype]
      simp [readTransport, recordOr, recordComplaints, Value.isRecord, htype]
  all_goals
    simp [readTransport, recordOr, transportComplaints, recordComplaints,
      Value.get, Fields.get, Value.isRecord, Value.isNothing, Value.fields?, Value.asText,
      String.append_assoc]

/-- The notes on a listener with a type are the complaints about it. -/
theorem readInbound_notes {el : Fields} (h : textOf el "type" ≠ "") (index : Nat) :
    (readInbound el index).notes =
      notedOf (Inbound.label (textOf el "tag") index) (complaints (.obj el)) := by
  unfold readInbound
  dsimp only
  rw [if_neg h]
  simp only [Noted.bind_notes, Noted.pure_notes, List.append_nil, readUsers_notes, readTls_notes,
    readMultiplex_notes, readTransport_notes]
  simp only [complaints, notedOf_append, List.append_assoc]
  rfl

end SingBox

namespace Xray

/-- How a client of a list is named. -/
def itemName (list : String) (i : Nat) : String := "settings." ++ list ++ "[" ++ toString i ++ "]"

/-- Where the settings of a protocol list its clients. -/
def clientsName (protocol : String) : String :=
  if protocol = "socks" || protocol = "http" then "accounts" else "clients"

/-- Where a stream has the settings of its transport, if that has any. -/
def transportName? (stream : Value) : Option String :=
  let network := (stream.get "network").asText
  if network = "" || network = "tcp" || network = "raw" then none
  else some ((if network = "h2" then "http" else network) ++ "Settings")

def transportComplaints (stream : Value) : List String :=
  (transportName? stream).toList.flatMap fun name =>
    recordComplaints (stream.get name)
      ("\"streamSettings." ++ name ++ "\" is not an object; using defaults")

def securityComplaints (stream : Value) : List String :=
  let security := (stream.get "security").asText
  let tls := stream.get "tlsSettings"
  if security = "" || security = "none" then []
  else if security = "tls" then
    objection (tls.isRecord || tls.isAbsent)
      "\"streamSettings.tlsSettings\" is not an object; TLS settings skipped"
  else if security = "reality" then
    objection (stream.get "realitySettings").isRecord
      "\"streamSettings.realitySettings\" is missing or not an object; Reality skipped"
  else ["unknown security '" ++ security ++ "'; TLS skipped"]

def settingsComplaints (protocol : String) (settings : Value) : List String :=
  let list := clientsName protocol
  listComplaints ("\"settings." ++ list ++ "\"") (itemName list) (settings.get list)

/-- The complaints about a listener that has a protocol. -/
def complaints (el : Value) : List String :=
  let stream := el.get "streamSettings"
  recordComplaints (el.get "settings") "\"settings\" is not an object; settings skipped"
    ++ settingsComplaints (el.get "protocol").asText (el.get "settings")
    ++ recordComplaints stream "\"streamSettings\" is not an object; transport and TLS skipped"
    ++ (transportComplaints stream ++ securityComplaints stream)

theorem readRecords_notes (settings : Fields) (name place : String) :
    (readRecords settings name place).notes =
      notedOf place (listComplaints ("\"settings." ++ name ++ "\"") (itemName name)
        (Fields.get settings name)) := by
  have hlist : place ++ ": \"settings." ++ name ++ "\" is not an array; users skipped" =
      place ++ ": " ++ ("\"settings." ++ name ++ "\"" ++ " is not an array; users skipped") := by
    rw [show ": \"settings." = ": " ++ "\"settings." from rfl,
      show "\" is not an array; users skipped" = "\"" ++ " is not an array; users skipped" from rfl]
    simp only [String.append_assoc]
  have hitem : ∀ i : Nat, place ++ ": settings." ++ name ++ "[" ++ toString i
      ++ "] is not an object; skipped" =
      place ++ ": " ++ (itemName name i ++ " is not an object; skipped") := by
    intro i
    rw [itemName, show ": settings." = ": " ++ "settings." from rfl,
      show "] is not an object; skipped" = "]" ++ " is not an object; skipped" from rfl]
    simp only [String.append_assoc]
  unfold readRecords
  cases Fields.get settings name with
  | absent | null => rfl
  | arr xs =>
      refine filterMap_records_notes _ (itemName name) place (fun _ _ => rfl) (fun i v hv => ?_) xs
      cases v with
      | obj => cases hv
      | _ => exact congrArg (fun note => [note]) (hitem i)
  | _ => exact congrArg (fun note => [note]) hlist

theorem readSettings_notes (protocol : String) (settings : Fields) (place : String) :
    (readSettings protocol settings place).notes =
      notedOf place (settingsComplaints protocol (.obj settings)) := by
  unfold readSettings
  by_cases hshadow : protocol = "shadowsocks"
  · subst hshadow
    exact (List.append_nil _).trans (readRecords_notes settings "clients" place)
  rw [if_neg hshadow, settingsComplaints, clientsName]
  split
  · exact (List.append_nil _).trans (readRecords_notes settings "accounts" place)
  · exact (List.append_nil _).trans (readRecords_notes settings "clients" place)

theorem readTransport_notes (stream : Fields) (place : String) :
    (readTransport stream (textOf stream "network") place).notes =
      notedOf place (transportComplaints (.obj stream)) := by
  have hasked : ((Value.obj stream).get "network").asText = textOf stream "network" := rfl
  unfold readTransport transportComplaints transportName?
  rw [hasked]
  dsimp only
  split
  · rfl
  · generalize (if textOf stream "network" = "h2" then "http" else textOf stream "network") ++
      "Settings" = name
    have hnote : place ++ ": \"streamSettings." ++ name ++ "\" is not an object; using defaults" =
        place ++ ": " ++
          ("\"streamSettings." ++ name ++ "\" is not an object; using defaults") := by
      rw [show ": \"streamSettings." = ": " ++ "\"streamSettings." from rfl]
      simp only [String.append_assoc]
    change _ = notedOf place (recordComplaints (Fields.get stream name) _ ++ [])
    cases Fields.get stream name with
    | absent | null | obj => rfl
    | _ => exact congrArg (fun note => [note]) hnote

theorem readSecurity_notes (stream : Fields) (place : String) :
    (readSecurity stream (textOf stream "security") place).notes =
      notedOf place (securityComplaints (.obj stream)) := by
  have hasked : ((Value.obj stream).get "security").asText = textOf stream "security" := rfl
  have htls : (Value.obj stream).get "tlsSettings" = Fields.get stream "tlsSettings" := rfl
  have hreality : (Value.obj stream).get "realitySettings" = Fields.get stream "realitySettings" :=
    rfl
  unfold readSecurity securityComplaints
  rw [hasked, htls, hreality]
  generalize textOf stream "security" = security
  dsimp only
  split
  · rfl
  split
  · cases Fields.get stream "tlsSettings" <;>
      simp [Value.isRecord, Value.isAbsent, String.append_assoc]
  split
  · cases Fields.get stream "realitySettings" <;> simp [Value.isRecord, String.append_assoc]
  · have hnote : place ++ ": unknown security '" ++ security ++ "'; TLS skipped" =
        place ++ ": " ++ ("unknown security '" ++ security ++ "'; TLS skipped") := by
      rw [show ": unknown security '" = ": " ++ "unknown security '" from rfl]
      simp only [String.append_assoc]
    exact congrArg (fun note => [note]) hnote

theorem readStream_notes (v : Value) (place : String) :
    (readStream v place).notes = notedOf place
      (recordComplaints v "\"streamSettings\" is not an object; transport and TLS skipped"
        ++ (transportComplaints v ++ securityComplaints v)) := by
  cases v with
  | obj stream =>
      change _ ++ (_ ++ []) = _
      rw [readTransport_notes, readSecurity_notes, List.append_nil, ← notedOf_append]
      rfl
  | absent | null => rfl
  | _ => simp [readStream, recordComplaints, transportComplaints, transportName?,
      securityComplaints, Value.isRecord, Value.isNothing, Value.get, Value.asText,
      String.append_assoc]

/-- The notes on a listener with a protocol are the complaints about it. -/
theorem readInbound_notes {el : Fields} (h : textOf el "protocol" ≠ "") (index : Nat) :
    (readInbound el index).notes =
      notedOf (Inbound.label (textOf el "tag") index) (complaints (.obj el)) := by
  have hsettings : ∀ v : Value, settingsComplaints (textOf el "protocol") (.obj (fieldsOf v)) =
      settingsComplaints (textOf el "protocol") v := by
    intro v
    cases v <;> rfl
  have hasked : ((Value.obj el).get "protocol").asText = textOf el "protocol" := rfl
  unfold readInbound complaints
  dsimp only
  rw [if_neg h, Noted.notes_unless, Noted.bind_notes, Noted.bind_notes, readSettings_notes,
    readStream_notes, hsettings, hasked]
  simp only [notedOf_append, List.append_assoc, Noted.pure_notes, List.append_nil]
  congr 1
  change _ = notedOf _ (recordComplaints (Fields.get el "settings") _)
  cases Fields.get el "settings" <;>
    simp [recordComplaints, Value.isRecord, Value.isNothing, String.append_assoc]

end Xray

namespace Engine

variable {e : Engine} {el : Value}

/-- The field that tells what kind of listener an element is. -/
def typeField : Engine → String
  | .singBox => "type"
  | .xray => "protocol"

/-- An element is read if it is a record with a text for its type. -/
def keeps (e : Engine) (el : Value) : Bool := el.isRecord && (el.get e.typeField).asText != ""

/-- The complaints about an element that is read. -/
def complaints (e : Engine) (el : Value) : List String :=
  match e with
  | .singBox => SingBox.complaints el
  | .xray => Xray.complaints el

/-- How notes name an element. -/
def place (el : Value) (index : Nat) : String := Inbound.label (el.get "tag").asText index

/-- The note on an element that is passed over. -/
def skipNote (e : Engine) (el : Value) (index : Nat) : String :=
  if el.isRecord then place el index ++ ": missing \"" ++ e.typeField ++ "\"; skipped"
  else "inbound #" ++ toString index ++ ": not an object; skipped"

/-- One element as an engine reads it. -/
def readElement (e : Engine) (el : Value) (index : Nat) : Noted (Option Inbound) :=
  match el with
  | .obj fs => e.readInbound fs index
  | _ => ⟨none, ["inbound #" ++ toString index ++ ": not an object; skipped"]⟩

theorem readElement_skipped (h : e.keeps el = false) (index : Nat) :
    e.readElement el index = ⟨none, [e.skipNote el index]⟩ := by
  cases el with
  | obj fs =>
      have hempty : textOf fs e.typeField = "" := by
        simpa [keeps, Value.isRecord, textOf, Value.get] using h
      have hnote : e.skipNote (.obj fs) index = place (.obj fs) index
          ++ (": missing \"" ++ (e.typeField ++ "\"; skipped")) := by
        rw [← String.append_assoc, ← String.append_assoc]
        rfl
      cases e with
      | singBox =>
          rw [typeField] at hempty
          rw [hnote, readElement, readInbound, SingBox.readInbound, if_pos hempty]
          rfl
      | xray =>
          rw [typeField] at hempty
          rw [hnote, readElement, readInbound, Xray.readInbound, if_pos hempty]
          rfl
  | _ => rfl

theorem readElement_notes (h : e.keeps el = true) (index : Nat) :
    (e.readElement el index).notes = notedOf (place el index) (e.complaints el) := by
  cases el with
  | obj fs =>
      have hnamed : textOf fs e.typeField ≠ "" := by
        simpa [keeps, Value.isRecord, textOf, Value.get] using h
      cases e with
      | singBox => exact SingBox.readInbound_notes hnamed index
      | xray => exact Xray.readInbound_notes hnamed index
  | _ => cases h

/-- A file is read element by element. -/
theorem read_eq (e : Engine) (file text : String) : e.read file text =
    (ConfigFile.elements e file text).map fun els =>
      ⟨els.zipIdx.filterMap fun x => (e.readElement x.1 x.2).value,
        els.zipIdx.flatMap fun x => (e.readElement x.1 x.2).notes⟩ := by
  cases e with
  | singBox =>
      have hread : ∀ els, SingBox.readElements els =
          Noted.filterMap (fun i el => singBox.readElement el i) els := fun els =>
        congrArg (Noted.filterMap · els) (funext fun i => funext fun el => by cases el <;> rfl)
      exact congrArg (Except.map · _)
        (funext fun els => (hread els).trans (Noted.filterMap_eq _ els))
  | xray =>
      have hread : ∀ els, Xray.readElements els =
          Noted.filterMap (fun i el => xray.readElement el i) els := fun els =>
        congrArg (Noted.filterMap · els) (funext fun i => funext fun el => by cases el <;> rfl)
      exact congrArg (Except.map · _)
        (funext fun els => (hread els).trans (Noted.filterMap_eq _ els))

end Engine

end ProxyFleet
