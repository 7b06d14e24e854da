import ProxyFleet.Conversion
import ProxyFleet.Proofs.Inbound.Record
import ProxyFleet.Proofs.Value.Reread
import ProxyFleet.Template.Subscriber

/-!
# Listeners written for subscribers, and files that hold them

A template that has an engine write a listener for subscribers first replaces the
clients of the record (`Inbound.withSubscribers`). What is written ends up in a
file, in some layout and at one of two places, and reading the file finds it there
again, read back.
-/

namespace ProxyFleet

/-- What is seen of a result that may be missing is seen of what it is. -/
theorem exists_ok_of_seen {ε α β : Type} {x : Except ε α} {f : α → β} {b : β}
    (h : x.toOption.map f = some b) : ∃ a, x = .ok a ∧ f a = b := by
  cases x with
  | error _ => cases h
  | ok a => exact ⟨a, rfl, Option.some.inj h⟩

/-! ## Listeners with subscribers -/

namespace Inbound

/-- A listener with the enabled subscribers for its clients. -/
def withSubscribers (i : Inbound) (ss : List Subscriber) : Inbound :=
  { i with users := (Subscriber.accounts i.type ss).map Subscriber.Account.toUser }

variable {i : Inbound}

/-- Putting subscribers in a record puts them in the listener that is read from it. -/
theorem Reads.withSubscribers {fs : Fields} (h : Reads (.obj fs) i) (ss : List Subscriber) :
    Reads (.obj (Fields.withSubscribers ss fs)) (i.withSubscribers ss) := by
  have hother : ∀ n, n ≠ "users" →
      (Value.obj (Fields.withSubscribers ss fs)).get n = (Value.obj fs).get n := fun n hn =>
    Fields.get_put_of_ne fs _ hn
  have htype : textOf fs "type" = i.type := congrArg Value.asText h.type
  have husers : (Value.obj (Fields.withSubscribers ss fs)).get "users" =
      .arr ((i.withSubscribers ss).users.map User.toValue) := by
    refine (Fields.get_put_self fs "users" _).trans ?_
    rw [htype, Inbound.withSubscribers, List.map_map]
    rfl
  exact {
    type := (hother _ (by decide)).trans h.type
    tag := (hother _ (by decide)).trans h.tag
    listen := (hother _ (by decide)).trans h.listen
    listenPort := (hother _ (by decide)).trans h.listenPort
    transport := (congrArg _ (hother _ (by decide))).trans h.transport
    tls := (congrArg _ (hother _ (by decide))).trans h.tls
    multiplex := (congrArg _ (hother _ (by decide))).trans h.multiplex
    users := ⟨_, husers, mapM_map User.ofValue?_toValue _⟩
    options := (hother _ (by decide)).trans h.options }

end Inbound

/-- A listener written for subscribers is written with them for its clients. -/
theorem Engine.writeFor_native {e : Engine} {v users : Value} {i : Inbound} {native : Fields}
    (hrecord : v.isInbound = true) (hread : Inbound.ofValue? v = some i)
    (husers : users ≠ .absent)
    (hnative : (e.writeInbound (i.withSubscribers (Subscriber.listOf users)) 0).value =
      some native) :
    ∃ notes, e.writeFor v users = .ok ⟨.obj native, notes⟩ := by
  obtain ⟨fs, rfl⟩ := (Inbound.reads_iff.1 hread).isRecord
  have hwith := Inbound.reads_iff.2
    ((Inbound.reads_iff.1 hread).withSubscribers (Subscriber.listOf users))
  have hgiven : users.isAbsent = false := by
    cases users <;> first | exact absurd rfl husers | rfl
  generalize i.withSubscribers (Subscriber.listOf users) = i' at hwith hnative
  refine ⟨(e.writeInbound i' 0).notes ++ [], ?_⟩
  unfold writeFor
  dsimp only
  rw [hrecord, hgiven, writeRecord, if_neg (by decide), if_neg (by decide), hwith]
  refine congrArg Except.ok ?_
  change Noted.mk _ _ = _
  rw [hnative]
  rfl

/-! ## Files -/

/-- A configuration file with certain listeners and no others. -/
inductive ConfigFile.HasListeners (natives : List Value) : Value → Prop
  | array : HasListeners natives (.arr natives)
  | record {fs : Fields} (h : Fields.Holds fs "inbounds" (.arr natives)) :
      HasListeners natives (.obj fs)

theorem ConfigFile.HasListeners.alone (natives : List Value) :
    HasListeners natives (.obj [("inbounds", .arr natives)]) := by
  have hnames : ([("inbounds", Value.arr natives)].map Prod.fst).Nodup :=
    (by decide : ["inbounds"].Nodup)
  exact .record (.get_of_nodup hnames "inbounds")

/-- Whatever its layout, a written file is found to have its listeners, read back. -/
theorem ConfigFile.HasListeners.elements_written {natives : List Value} {doc : Value}
    (h : HasListeners natives doc) (e : Engine) (file : String) (l : Layout) (depth : Nat) :
    elements e file (String.ofList (Printer.value l depth doc)) =
      .ok (natives.map Value.reread) := by
  rw [elements, Value.ofCommentedText?_written, ← Value.rereadItems_eq_map]
  cases h with
  | array =>
      rw [Value.reread]
  | record h =>
      rw [Value.reread]
      have hinbounds := h.reread nofun
      rw [Value.reread] at hinbounds
      dsimp only
      rw [hinbounds]

/-- One listener as an engine reads it. -/
def Engine.readInbound (e : Engine) (el : Fields) (index : Nat) : Noted (Option Inbound) :=
  match e with
  | .singBox => SingBox.readInbound el index
  | .xray => Xray.readInbound el index

/-- The one listener of a written file is read as it is on its own. -/
theorem Engine.read_written {e : Engine} {native : Fields} {doc : Value} {j : Inbound}
    (h : ConfigFile.HasListeners [.obj native] doc)
    (hj : (e.readInbound (Value.rereadFields [] native) 0).value = some j) (file : String)
    (l : Layout) (depth : Nat) :
    ∃ notes, e.read file (String.ofList (Printer.value l depth doc)) = .ok ⟨[j], notes⟩ := by
  have hreread : [Value.obj native].map Value.reread = [.obj (Value.rereadFields [] native)] := by
    rw [List.map_singleton, Value.reread]
  cases e with
  | singBox =>
      refine ⟨(SingBox.readElements [.obj (Value.rereadFields [] native)]).notes, ?_⟩
      rw [read, SingBox.read, h.elements_written, hreread]
      change Except.ok (Noted.mk ((SingBox.readInbound _ 0).value.toList ++ []) _) = _
      rw [show (SingBox.readInbound (Value.rereadFields [] native) 0).value = some j from hj]
      rfl
  | xray =>
      refine ⟨(Xray.readElements [.obj (Value.rereadFields [] native)]).notes, ?_⟩
      rw [read, Xray.read, h.elements_written, hreread]
      change Except.ok (Noted.mk ((Xray.readInbound _ 0).value.toList ++ []) _) = _
      rw [show (Xray.readInbound (Value.rereadFields [] native) 0).value = some j from hj]
      rfl

end ProxyFleet
