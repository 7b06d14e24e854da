import ProxyFleet.Proofs.Inbound.Faults
import ProxyFleet.Proofs.Template.Searches
import ProxyFleet.Template.Check

/-!
# Notes of a shared renderer

Only two helpers note anything: those that have an engine write a listener. A helper hands its
notes over once it has come to its end, so a run tells each call together with all of its notes
or with none (`Tells`), whether the run ends or breaks off later.

A renderer keeps a sink between its requests, and a request may fail before the sink is set, while
notes go to it, or after it was cleared. The sink is cleared again whenever a request is answered.
That is the whole invariant, and from it each array holds what the requests that gave it have
noted, in order (`Renderer.serveAll_notes`).
-/

namespace ProxyFleet

/-- The notes of a result. A fault has none. -/
def notesOf {ε α : Type} : Except ε (Noted α) → List String
  | .ok r => r.notes
  | .error _ => []

section NotesOf

variable {ε α β : Type}

theorem notesOf_map (f : α → β) (x : Except ε (Noted α)) :
    notesOf (x.map fun r => do pure (f (← r))) = notesOf x := by
  cases x with
  | error e => rfl
  | ok r => exact List.append_nil r.notes

theorem notesOf_map_pure (f : α → β) (x : Except ε α) :
    notesOf (x.map fun a => (pure (f a) : Noted β)) = [] := by
  cases x <;> rfl

theorem notesOf_bind {f : α → Except ε (Noted β)} (h : ∀ a, notesOf (f a) = [])
    (x : Except ε α) : notesOf (x >>= f) = [] := by
  cases x with
  | error e => rfl
  | ok a => exact h a

end NotesOf

/-- What an engine notes of a listener that a template has it write, with the subscribers for its
clients if any are given. What is no listener is not written. -/
def Engine.notesOn (e : Engine) (listener users : Value) : List String :=
  if listener.isInbound then notesOf (e.writeRecord (listener.servedTo users) 0) else []

theorem Engine.writeFor_notes (e : Engine) (listener users : Value) :
    notesOf (e.writeFor listener users) = e.notesOn listener users := by
  unfold writeFor notesOn
  split
  · next fs =>
    cases Value.isInbound (.obj fs) with
    | false => rfl
    | true => exact notesOf_map _ _
  · next hother =>
    cases listener with
    | obj fs => exact absurd rfl (hother fs)
    | _ => rfl

namespace Template

/-! ## Calls -/

/-- The engine that a helper has write a listener. -/
def Helper.engine? : Helper → Option Engine
  | .singBoxInbound => some .singBox
  | .xrayInbound => some .xray
  | _ => none

namespace HelperCall

/-- What the engine of a helper notes of what is given to the helper. -/
def notes (c : HelperCall) : List String :=
  match c.helper.engine? with
  | some e => e.notesOn (c.args.getD 0 .absent).toValue (c.args.getD 1 .absent).toValue
  | none => []

/-- All that is told of a call. -/
def told (c : HelperCall) : List Told := .call c :: c.notes.map .note

end HelperCall

theorem Helper.apply_silent {h : Helper} (hengine : h.engine? = none) (args : List Item)
    (number : Nat) : notesOf (h.apply args number) = [] := by
  cases h with
  | singBoxInbound | xrayInbound => cases hengine
  | join | quote | lower | upper | trim | replace => exact notesOf_map_pure _ _
  | contains | hasCap => exact notesOf_bind (fun _ => notesOf_bind (fun _ => rfl) _) _
  | startsWith | endsWith => exact notesOf_bind (fun _ => notesOf_bind (fun _ => rfl) _) _
  | usersForProtocol | filterByType | v2rayApiConfig | xrayApiConfig =>
      exact notesOf_bind (fun _ => rfl) _
  | _ => rfl

theorem Helper.apply_notes (h : Helper) (args : List Item) (number : Nat) :
    notesOf (h.apply args number) = HelperCall.notes ⟨h, args⟩ := by
  cases hengine : h.engine? with
  | none =>
      rw [apply_silent hengine, HelperCall.notes]
      dsimp only
      rw [hengine]
  | some e =>
      cases h with
      | singBoxInbound | xrayInbound =>
          exact (notesOf_map _ _).trans (Engine.writeFor_notes _ _ _)
      | _ => cases hengine

/-! ## Runs -/

/-- Whatever was told before, a run tells calls, and of each all that is told of it. -/
def Tells {α : Type} (r : Run α) : Prop :=
  ∀ p, ∃ cs : List HelperCall, (r p).2.told = (cs.flatMap HelperCall.told).reverse ++ p.told

namespace Tells

variable {α β : Type} {r : Run α}

theorem of_eq (h : ∀ p, (r p).2.told = p.told) : Tells r := fun p => ⟨[], h p⟩

theorem bind {f : α → Run β} (hr : Tells r) (hf : ∀ a, CanGive r a → Tells (f a)) :
    Tells (r >>= f) := by
  intro p
  change ∃ cs, (ExceptT.bindCont f (r p).1 (r p).2).2.told = _
  obtain ⟨before, hbefore⟩ := hr p
  rcases hrun : r p with ⟨e | a, q⟩
  · rw [hrun] at hbefore
    exact ⟨before, hbefore⟩
  · rw [hrun] at hbefore
    obtain ⟨after, hafter⟩ := hf a ⟨p, q, hrun⟩ q
    refine ⟨before ++ after, hafter.trans ?_⟩
    rw [hbefore, List.flatMap_append, List.reverse_append, List.append_assoc]

theorem lookUp (s : Scope) (needed : Bool) (w : Way) : Tells (lookUp s needed w) :=
  of_eq fun p => by rw [lookUp_snd]

theorem callHelper (h : Helper) (args : List Item) : Tells (callHelper h args) := by
  intro p
  refine ⟨[⟨h, args⟩], ?_⟩
  have hnotes := h.apply_notes args p.made
  rw [callHelper_eq, List.flatMap_singleton, HelperCall.told, ← hnotes, List.reverse_cons,
    List.append_assoc]
  cases h.apply args p.made <;> rfl

end Tells

instance {W : Ways} : Seeking W fun _ r => Tells r where
  pure _ := Tells.of_eq fun _ => rfl
  throw _ := Tells.of_eq fun _ => rfl
  bind := Tells.bind
  lookUp s needed w _ := Tells.lookUp s needed w
  newNumber := Tells.of_eq fun _ => rfl
  callHelper := Tells.callHelper

namespace Progress

variable {p : Progress} {cs : List HelperCall}

theorem calls_of_told (h : p.told = (cs.flatMap HelperCall.told).reverse) : p.calls = cs := by
  have hcall (c : HelperCall) : c.told.filterMap Told.call? = [c] := by
    simp [HelperCall.told, Told.call?, List.filterMap_map]
  rw [calls, h, List.reverse_reverse, List.filterMap_flatMap]
  simp [hcall]

theorem notes_of_told (h : p.told = (cs.flatMap HelperCall.told).reverse) :
    p.notes = cs.flatMap HelperCall.notes := by
  have hnotes (c : HelperCall) : c.told.filterMap Told.note? = c.notes := by
    rw [HelperCall.told, List.filterMap_cons_none rfl, List.filterMap_map]
    exact List.filterMap_some
  rw [notes, h, List.reverse_reverse, List.filterMap_flatMap]
  simp only [hnotes]

end Progress

theorem runTemplate_notes (program : Program) (context : Value) :
    let p := (runTemplate program context ⟨[], Scope.firstNumber, []⟩).2
    p.notes = p.calls.flatMap HelperCall.notes := by
  obtain ⟨cs, htold⟩ :=
    runTemplate_has (K := fun _ r => Tells r) program context ⟨[], Scope.firstNumber, []⟩
  rw [List.append_nil] at htold
  dsimp only
  rw [Progress.calls_of_told htold, Progress.notes_of_told htold]

/-! ## Renderings -/

/-- The helpers that are called when a template is rendered, in order. -/
def called (content : String) (context : Value) : List HelperCall :=
  match parse content with
  | .ok program => (runTemplate program context ⟨[], Scope.firstNumber, []⟩).2.calls
  | .error _ => []

theorem renderRaw_notes (content : String) (context : Value) :
    (renderRaw content context).notes = (called content context).flatMap HelperCall.notes := by
  unfold renderRaw called
  cases parse content with
  | error f => rfl
  | ok program =>
      rw [← runTemplate_notes]
      dsimp only
      split <;> rfl

namespace Renderer

/-- Done by a renderer with a clear sink, something has a value, adds to the arrays and leaves the
sink clear. -/
def Adds {α : Type} (r : StateM Renderer α) (a : α) (added : Nat → List String) : Prop :=
  ∀ arrays, r ⟨arrays, none⟩ = (a, ⟨fun n => arrays n ++ added n, none⟩)

/-- Notes for the array that is given, if one is. -/
def forGiven (given : Option Nat) (notes : List String) (n : Nat) : List String :=
  if given = some n then notes else []

namespace Adds

variable {α β : Type} {r : StateM Renderer α} {a : α} {b : β} {first second : Nat → List String}

theorem pure (a : α) : Adds (pure a) a fun _ => [] := by
  intro arrays
  simp only [List.append_nil]
  rfl

theorem bind {f : α → StateM Renderer β} (hr : Adds r a first) (hf : Adds (f a) b second) :
    Adds (r >>= f) b fun n => first n ++ second n := by
  intro arrays
  change f (r ⟨arrays, none⟩).1 (r ⟨arrays, none⟩).2 = _
  rw [hr arrays]
  simp only [hf _, List.append_assoc]

theorem bind_pure {f : α → StateM Renderer β} (hr : Adds r a first) (hf : f a = Pure.pure b) :
    Adds (r >>= f) b first := by
  intro arrays
  change f (r ⟨arrays, none⟩).1 (r ⟨arrays, none⟩).2 = _
  rw [hr arrays]
  exact congrFun hf _

theorem map (f : α → β) (hr : Adds r a first) : Adds (f <$> r) (f a) first :=
  hr.bind_pure (f := fun a => Pure.pure (f a)) rfl

theorem mapM {f : α → StateM Renderer β} {g : α → β} {h : α → Nat → List String}
    (hf : ∀ a, Adds (f a) (g a) (h a)) (as : List α) :
    Adds (as.mapM f) (as.map g) fun n => as.flatMap (h · n) := by
  induction as with
  | nil => exact pure []
  | cons a as ih =>
      rw [List.mapM_cons]
      exact (hf a).bind (ih.bind_pure rfl)

end Adds

theorem foldl_push (notes : List String) (arrays : Nat → List String) (given : Option Nat) :
    notes.foldl push ⟨arrays, given⟩ = ⟨fun n => arrays n ++ forGiven given notes n, given⟩ := by
  induction notes generalizing arrays with
  | nil => simp [forGiven]
  | cons text notes ih =>
      rw [List.foldl_cons]
      cases given with
      | none => exact ih arrays
      | some m =>
          refine (ih _).trans (congrArg (Renderer.mk · _) (funext fun n => ?_))
          by_cases hn : n = m
          · simp [forGiven, hn]
          · simp [forGiven, hn, Ne.symm hn]

section Requests

variable (content : String) (context : Value) (given : Option Nat)

theorem renderRaw_adds : Adds (renderRaw content context given)
    (Template.renderRaw content context).result
    (forGiven given (Template.renderRaw content context).notes) := by
  unfold renderRaw Template.renderRaw
  cases parse content with
  | error f =>
      have hnothing : forGiven given [] = fun _ => [] := funext fun _ => ite_self _
      dsimp only
      rw [hnothing]
      exact .pure _
  | ok program =>
      intro arrays
      dsimp only
      generalize runTemplate program context ⟨[], Scope.firstNumber, []⟩ = run
      obtain ⟨r, p⟩ := run
      have hpushed := foldl_push p.notes arrays given
      cases r <;> exact congrArg (fun q => (_, { q with sink := none })) hpushed

theorem render_adds : Adds (render content context given)
    (Template.render content context).result
    (forGiven given (Template.renderRaw content context).notes) := by
  refine (renderRaw_adds content context given).bind_pure ?_
  unfold Template.render
  dsimp only
  cases (Template.renderRaw content context).result with
  | error f => rfl
  | ok s =>
      dsimp only
      cases Value.ofText? s <;> rfl

theorem check_adds (type : String) : Adds (check content type) (Template.check content type)
    (forGiven none (Template.renderRaw content (.obj Context.sample)).notes) := by
  refine (render_adds content (.obj Context.sample) none).bind_pure ?_
  unfold Template.check Template.preview
  cases (Template.render content (.obj Context.sample)).result <;> rfl

end Requests

namespace Request

/-- The array that is given for the notes of a request. -/
def given : Request → Option Nat
  | .renderRaw _ _ given | .render _ _ given => given
  | .preview _ | .check _ _ => none

/-- The helpers that are called for a request. -/
def calls : Request → List HelperCall
  | .renderRaw content context _ | .render content context _ => called content context
  | .preview content | .check content _ => called content (.obj Context.sample)

/-- What the helpers note that are called for a request. -/
def notes (q : Request) : List String := q.calls.flatMap HelperCall.notes

/-- What comes of a request that is the only one. -/
def answer : Request → Answer
  | .renderRaw content context _ => .text (Template.renderRaw content context).result
  | .render content context _ => .text (Template.render content context).result
  | .preview content => .text (Template.preview content)
  | .check content type => .verdict (Template.check content type)

end Request

theorem serve_adds (q : Request) : Adds (serve q) q.answer (forGiven q.given q.notes) := by
  cases q with
  | renderRaw content context given =>
      rw [Request.notes, Request.calls, ← renderRaw_notes]
      exact (renderRaw_adds content context given).map _
  | render content context given =>
      rw [Request.notes, Request.calls, ← renderRaw_notes]
      exact (render_adds content context given).map _
  | preview content => exact (render_adds content _ none).map _
  | check content type => exact (check_adds content type).map _

theorem flatMap_forGiven (rs : List Request) (n : Nat) :
    (rs.flatMap fun q => forGiven q.given q.notes n) =
      (rs.filter fun q => q.given = some n).flatMap Request.notes := by
  induction rs with
  | nil => rfl
  | cons q rs ih =>
      rw [List.flatMap_cons, ih, forGiven, List.filter_cons]
      by_cases hq : q.given = some n
      · simp [hq]
      · simp [hq]

/-- Requests to one renderer, whatever they are and however they fail: each is answered as if it
were the only one, and an array has gained the notes of the requests that it was given for, in
order, and nothing else. -/
theorem serveAll_notes (rs : List Request) (arrays : Nat → List String) :
    serveAll rs ⟨arrays, none⟩ =
      (rs.map Request.answer,
        ⟨fun n => arrays n ++ (rs.filter fun q => q.given = some n).flatMap Request.notes,
          none⟩) := by
  have hadds := Adds.mapM serve_adds rs arrays
  simp only [flatMap_forGiven] at hadds
  exact hadds

/-- A rendering whose text is no data has noted that the listener in it is left out. -/
example : let content := "\x7b\x7bxrayInbound listener\x7d\x7d"
    let listener : Value := .obj [("tag", .str "near"), ("type", .str "hysteria2"),
      ("listen", .str "::"), ("listenPort", .int 443), ("users", .arr []), ("options", .obj []),
      ("requiredCapabilities", .arr [])]
    let context : Value := .obj [("listener", listener)]
    (Template.render content context).result.toOption = none ∧
      Request.notes (.render content context (some 0)) =
        ["inbound 'near': protocol 'hysteria2' is not supported by Xray; inbound skipped"] := by
  decide +kernel

end Renderer

end Template

end ProxyFleet
