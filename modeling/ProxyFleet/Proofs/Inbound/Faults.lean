import ProxyFleet.Proofs.Context.Fitting
import ProxyFleet.Proofs.Inbound.Files
import ProxyFleet.Proofs.Inbound.Unchecked

/-!
# Where misshapen listeners fault

Records that are stored or given to a template are checked at their top and no deeper.
Fitting them to an agent and writing them for an engine looks deeper. Each has its own
condition on the parts of a record (`Context.Fittable`, `Engine.Writable`), and it comes to
an end on exactly the records that meet it. Well-shaped listeners meet all of them.
-/

namespace ProxyFleet

/-! ## Well-shaped parts -/

theorem Value.optional_of_read {α : Type} {read : Value → Option α} {o : Option α}
    {C : Value → Prop} {v : Value} (h : optionalPart read v = some o) (hnull : read .null = none)
    (hread : ∀ x, read v = some x → C v) : v.Optional C := by
  constructor
  · rintro rfl
    simp [optionalPart, hnull] at h
  · intro hthere
    cases o with
    | none => exact absurd (optionalPart_eq_none h rfl) hthere
    | some x => exact hread x (optionalPart_eq_some h rfl)

/-- If a list is read item by item, every item is. -/
theorem exists_of_mapM {α β : Type} {f : α → Option β} {as : List α} {bs : List β}
    (h : as.mapM f = some bs) : ∀ a ∈ as, ∃ b, f a = some b := by
  induction as generalizing bs with
  | nil => exact fun _ ha => absurd ha List.not_mem_nil
  | cons a as ih =>
      rw [List.mapM_cons] at h
      obtain ⟨b, hb, h⟩ := Option.bind_eq_some_iff.1 h
      obtain ⟨cs, hcs, -⟩ := Option.bind_eq_some_iff.1 h
      exact List.forall_mem_cons.2 ⟨⟨b, hb⟩, ih hcs⟩

theorem Value.items_of_texts {v : Value} {ts : List String} (h : v.texts? = some ts) :
    ∃ xs, v = .arr xs ∧ ∀ x ∈ xs, x.speakable = true := by
  obtain ⟨xs, hxs, hall⟩ := Option.bind_eq_some_iff.1 h
  refine ⟨xs, items?_eq_some.1 hxs, fun x hx => ?_⟩
  obtain ⟨s, hs⟩ := exists_of_mapM hall x hx
  rw [text?_eq_some.1 hs]
  rfl

namespace Unchecked

variable {v w : Value}

theorem Handshake.leads {o : Option Handshake} (h : optionalPart Handshake.ofValue? v = some o)
    {serverName : Value} (hname : serverName.speakable = true) : Leads v serverName := by
  cases o with
  | none =>
      rw [optionalPart_eq_none h rfl]
      exact ⟨nofun, fun _ => hname, rfl, rfl⟩
  | some x =>
      have hread := optionalPart_eq_some h rfl
      simp only [Handshake.ofValue?, bind, Option.bind_eq_some_iff, Value.text?_eq_some,
        Value.number?_eq_some] at hread
      obtain ⟨server, hserver, port, hport, -⟩ := hread
      refine ⟨?_, fun _ => hname, by rw [hserver]; rfl, by rw [hport]; rfl⟩
      rintro rfl
      cases hserver

theorem reality_of_read {r : Reality} (h : Reality.ofValue? v = some r) {serverName : String}
    (ht : w.get "serverName" = .str serverName) : SingBoxReality v ∧ XrayReality v w := by
  simp only [Reality.ofValue?, bind, Option.bind_eq_some_iff, Value.text?_eq_some] at h
  obtain ⟨-, -, -, -, own, hown, others, hothers, -, -, -, -, -, -, handshake, hhandshake, -⟩ := h
  obtain ⟨xs, hxs, hspeakable⟩ := Value.items_of_texts hothers
  have hname : ((v.get "serverName").or (w.get "serverName")).speakable = true := by
    rw [hown, ht, Value.or]
    split <;> rfl
  have hleads := Handshake.leads hhandshake hname
  refine ⟨⟨hleads.asked, ?_⟩, hleads, ?_⟩
  · rw [hxs]
    exact hspeakable
  · rw [hxs]
    rfl

theorem writable_of_reads {i : Inbound} (h : Inbound.Reads v i) :
    SingBoxWritable v ∧ XrayWritable v := by
  obtain ⟨us, husers, hread⟩ := h.users
  have hasked : ∀ u ∈ (v.get "users").items?.getD [], u.isNothing = false := by
    rw [husers]
    intro u hu
    obtain ⟨x, hx⟩ := exists_of_mapM hread u hu
    cases u <;> first | rfl | cases hx
  have htransport : (v.get "transport").Optional fun t => (t.get "type").speakable = true := by
    refine Value.optional_of_read h.transport rfl fun t ht => ?_
    simp only [Transport.ofValue?, bind, Option.bind_eq_some_iff, Value.text?_eq_some] at ht
    obtain ⟨-, -, type, htype, -⟩ := ht
    rw [htype]
    rfl
  have htls : ∀ t, (∃ x, Tls.ofValue? t = some x) →
      (t.get "reality").Optional SingBoxReality ∧ XrayTls t := by
    rintro t ⟨x, hx⟩
    have hreads := Tls.reads_iff.1 hx
    have hreality := fun r hr => reality_of_read (v := t.get "reality") (r := r) hr hreads.serverName
    have hoptional : (t.get "reality").Optional (fun r => SingBoxReality r ∧ XrayReality r t) :=
      Value.optional_of_read hreads.reality rfl hreality
    refine ⟨⟨hoptional.1, fun hthere => (hoptional.2 hthere).1⟩, hoptional.1, fun hon =>
      (hoptional.2 ?_).2⟩
    exact (Value.isNothing_eq_false.1
      (Value.isNothing_of_get (Value.ne_absent_of_isTruthy hon))).1
  have hmultiplex : (v.get "multiplex").Optional fun m => m.get "brutal" ≠ .null := by
    refine Value.optional_of_read h.multiplex rfl fun m hm => ?_
    exact (Value.optional_of_read (C := fun _ => True) (Multiplex.reads_iff.1 hm).brutal rfl
      fun _ _ => trivial).1
  have hsecurity : (v.get "tls").Optional fun t =>
      (t.get "reality").Optional SingBoxReality ∧ XrayTls t :=
    Value.optional_of_read h.tls rfl fun x hx => htls _ ⟨x, hx⟩
  exact ⟨⟨hasked, ⟨hsecurity.1, fun ht => (hsecurity.2 ht).1⟩, hmultiplex, htransport⟩,
    hasked, ⟨htransport, hsecurity.1, fun _ => ⟨hsecurity.1, fun ht => (hsecurity.2 ht).2⟩⟩,
    hmultiplex.1⟩

end Unchecked

/-! ## Engines -/

open Unchecked

/-- The records that an engine writes, or leaves out, without a fault. -/
def Engine.Writable (e : Engine) (v : Value) : Prop :=
  match e with
  | .singBox => SingBoxWritable v
  | .xray => isOneOf (v.get "type") Xray.unservable = false → XrayWritable v

theorem Engine.writable_of_reads {v : Value} {i : Inbound} (h : Inbound.Reads v i) (e : Engine) :
    e.Writable v := by
  obtain ⟨hsingBox, hxray⟩ := Unchecked.writable_of_reads h
  cases e with
  | singBox => exact hsingBox
  | xray => exact fun _ => hxray

theorem Engine.writeRecord_ends {v : Value} {tag : String} {us : List Value} {os : Fields}
    (h : Top v tag us os) (e : Engine) (index : Nat) :
    (∃ r, e.writeRecord v index = .ok r) ↔ e.Writable v := by
  unfold writeRecord
  cases hread : Inbound.ofValue? v with
  | some i =>
      exact iff_of_true ⟨_, rfl⟩ (writable_of_reads (Inbound.reads_iff.1 hread) e)
  | none =>
      refine Value.exists_ok_map.trans ?_
      cases e with
      | singBox =>
          have hend := EndsIff.bind (singBox_ends h index) fun _ fs => .pure (some fs)
          exact (hend []).trans (iff_of_eq (and_true _))
      | xray => exact xray_ends h index []

/-- A listener's record as a template writes it: with the subscribers for its clients, if any are
given. -/
def Value.servedTo (v users : Value) : Value :=
  match v with
  | .obj fs =>
    .obj (if users.isAbsent then fs else Fields.withSubscribers (Subscriber.listOf users) fs)
  | _ => v

theorem Unchecked.Top.servedTo {v : Value} {tag : String} {us : List Value} {os : Fields}
    (h : Top v tag us os) (users : Value) : ∃ ws, Top (v.servedTo users) tag ws os := by
  unfold Value.servedTo
  split
  · next fs =>
    split
    · exact ⟨us, h⟩
    · have hother : ∀ {n}, n ≠ "users" →
          (Value.obj (Fields.withSubscribers (Subscriber.listOf users) fs)).get n =
            (Value.obj fs).get n := fun hn => Fields.get_put_of_ne _ _ hn
      exact ⟨_, rfl, (hother (by decide)).trans h.tag, by rw [hother (by decide)]; exact h.type,
        Fields.get_put_self _ _ _, (hother (by decide)).trans h.options⟩
  · exact ⟨us, h⟩

theorem Inbound.Reads.servedTo {v : Value} {i : Inbound} (h : Reads v i) (users : Value) :
    ∃ j, Reads (v.servedTo users) j := by
  obtain ⟨fs, rfl⟩ := h.isRecord
  unfold Value.servedTo
  dsimp only
  split
  · exact ⟨i, h⟩
  · exact ⟨_, h.withSubscribers _⟩

theorem Engine.writeFor_ends {v : Value} (h : v.isInbound = true) (e : Engine) (users : Value) :
    (∃ r, e.writeFor v users = .ok r) ↔ e.Writable (v.servedTo users) := by
  obtain ⟨tag, us, os, htop⟩ := top_of_isInbound h
  obtain ⟨ws, hserved⟩ := htop.servedTo users
  obtain ⟨fs, rfl, -⟩ := Value.isInbound_iff.1 h
  rw [← writeRecord_ends hserved e 0]
  unfold writeFor
  simp only [h, Bool.not_true, Bool.false_eq_true, if_false]
  exact Value.exists_ok_map

/-! ## Fitting -/

namespace Context

variable {a : Agent} {v : Value} {fs : Fields}

/-- The records of listeners that can be fitted to an agent. A rate that is null is passed over if
the multiplexing it stands in goes as a whole. -/
structure Fittable (a : Agent) (v : Value) : Prop where
  reality : (v.get "tls").get "reality" ≠ .null
  multiplex : v.get "multiplex" ≠ .null
  brutal : (v.get "multiplex").get "brutal" = .null →
    ((v.get "multiplex").get "enabled").isTruthy = true ∧
      a.supports Capability.multiplex.name = false

theorem ne_null_of_switched {p : Value} {b : Bool} (h : p.Switched b) : p ≠ .null := by
  rintro rfl
  rcases h with ⟨h, -⟩ | h <;> cases h

theorem fittable_of_reads {i : Inbound} (h : Inbound.Reads v i) : Fittable a v where
  reality := ne_null_of_switched h.reality
  multiplex := ne_null_of_switched h.multiplexing
  brutal := fun hnull => absurd hnull (ne_null_of_switched h.brutal)

theorem switchedOn_of_ne_null {p : Value} (h : p ≠ .null) :
    switchedOn p = .ok (p.get "enabled").isTruthy := by
  cases p <;> first | rfl | exact absurd rfl h

theorem switchedOn_null : switchedOn .null = .error (.noFields "enabled") := rfl

theorem removal_ends {tag : Value} (htag : tag.speakable = true) (feature : String)
    (c : Capability) : ∃ text, removal a feature c tag = .ok text := by
  obtain ⟨shown, hshown⟩ := Value.display_ends.2 htag
  rw [removal, hshown]
  exact ⟨_, rfl⟩

/-- Looking at Reality leaves the other parts of a listener as they are. -/
theorem fitReality_ends (htag : (Fields.get fs "tag").speakable = true)
    (h : (Fields.get fs "tls").get "reality" ≠ .null) : ∃ r, fitReality a fs = .ok r ∧
      ∀ n, n ≠ "tls" → Fields.get r.value n = Fields.get fs n := by
  obtain ⟨text, htext⟩ := removal_ends (a := a) htag "Reality" .reality
  unfold fitReality
  simp only [switchedOn_of_ne_null h, htext, bind, Except.bind]
  split
  · exact ⟨_, rfl, fun n hn => Fields.get_overwrite_of_ne _ _ hn⟩
  · exact ⟨_, rfl, fun _ _ => rfl⟩

theorem fitMultiplex_ends (htag : (Fields.get fs "tag").speakable = true) :
    (∃ r, fitMultiplex a fs = .ok r) ↔ Fields.get fs "multiplex" ≠ .null ∧
      ((Fields.get fs "multiplex").get "brutal" = .null →
        ((Fields.get fs "multiplex").get "enabled").isTruthy = true ∧
          a.supports Capability.multiplex.name = false) := by
  obtain ⟨text, htext⟩ := removal_ends (a := a) htag "Multiplex" .multiplex
  obtain ⟨text', htext'⟩ := removal_ends (a := a) htag "Brutal" .brutal
  unfold fitMultiplex
  generalize Fields.get fs "multiplex" = m
  dsimp only
  by_cases habsent : m = .absent
  · subst habsent
    exact iff_of_true ⟨_, rfl⟩ ⟨nofun, nofun⟩
  by_cases hnull : m = .null
  · subst hnull
    exact iff_of_false nofun fun h => h.1 rfl
  have hthere : m.isAbsent = false := by cases m <;> first | rfl | exact absurd rfl habsent
  simp only [hthere, switchedOn_of_ne_null hnull, htext, htext', bind, Except.bind, ne_eq, hnull,
    not_false_eq_true, true_and, Bool.false_eq_true, if_false, Bool.and_eq_true, Bool.not_eq_true']
  split
  · next hgoes => exact iff_of_true ⟨_, rfl⟩ fun _ => hgoes
  · next hstays =>
    simp only [hstays, imp_false]
    by_cases hbrutal : m.get "brutal" = .null
    · rw [hbrutal, switchedOn_null]
      exact iff_of_false nofun fun h => h rfl
    · rw [switchedOn_of_ne_null hbrutal]
      dsimp only
      split <;> exact iff_of_true ⟨_, rfl⟩ hbrutal

theorem fitInbound_ends (h : v.isInbound = true) :
    (∃ r, fitInbound a v = .ok r) ↔ Fittable a v := by
  obtain ⟨fs, rfl, htexts, -⟩ := Value.isInbound_iff.1 h
  obtain ⟨tag, htag⟩ := htexts "tag" (by simp)
  have hspeakable : (Fields.get fs "tag").speakable = true := by rw [htag]; rfl
  rw [fitInbound, Value.exists_ok_bind]
  constructor
  · rintro ⟨r, hr, hm⟩
    obtain ⟨m, hm, -⟩ := Value.exists_ok_bind.1 hm
    have hreality : (Fields.get fs "tls").get "reality" ≠ .null := by
      intro hnull
      rw [fitReality, hnull] at hr
      cases hr
    obtain ⟨r', hr', hkept⟩ := fitReality_ends (a := a) hspeakable hreality
    obtain rfl := Except.ok.inj (hr.symm.trans hr')
    obtain ⟨hmultiplex, hbrutal⟩ := (fitMultiplex_ends (by rwa [hkept _ (by decide)])).1 ⟨m, hm⟩
    rw [hkept _ (by decide)] at hmultiplex hbrutal
    exact ⟨hreality, hmultiplex, hbrutal⟩
  · intro hfit
    obtain ⟨r, hr, hkept⟩ := fitReality_ends (a := a) hspeakable hfit.reality
    have hmultiplex := (fitMultiplex_ends (a := a) (by rwa [hkept _ (by decide)])).2 (by
      rw [hkept _ (by decide)]
      exact ⟨hfit.multiplex, hfit.brutal⟩)
    obtain ⟨m, hm⟩ := hmultiplex
    exact ⟨r, hr, Value.exists_ok_bind.2 ⟨m, hm, _, rfl⟩⟩

theorem fitInbounds_ends {vs : List Value} (h : ∀ v ∈ vs, v.isInbound = true) :
    (∃ r, fitInbounds a vs = .ok r) ↔ ∀ v ∈ vs, Fittable a v := by
  induction vs with
  | nil => exact iff_of_true ⟨_, rfl⟩ (List.forall_mem_nil _)
  | cons v vs ih =>
      rw [fitInbounds, Value.exists_ok_bind, List.forall_mem_cons,
        ← fitInbound_ends (h v List.mem_cons_self),
        ← ih fun w hw => h w (List.mem_cons_of_mem _ hw)]
      simp only [Value.exists_ok_bind, pure, Except.pure, Except.ok.injEq, exists_eq', and_true]
      exact exists_and_right

/-- Whether a listener is not looked at, since the target core cannot serve its protocol. -/
def passedOver (target : String) (v : Value) : Bool :=
  Engine.ofName? target == some .xray && isOneOf (v.get "type") Xray.unservable

theorem servable_eq (h : v.isNothing = false) (target : String) :
    servable (.str target) v = .ok (!passedOver target v) := by
  unfold servable passedOver
  dsimp only
  rw [Value.field_eq_ok h]
  by_cases he : Engine.ofName? target = some .xray
  · rw [if_pos he, he]
    rfl
  · rw [if_neg he, beq_eq_false_iff_ne.2 he]
    rfl

theorem servableOnly_ends (target : String) {vs : List Value} (h : ∀ v ∈ vs, v.isInbound = true) :
    ∃ notes, servableOnly (.str target) vs = .ok ⟨vs.filter (!passedOver target ·), notes⟩ := by
  induction vs with
  | nil => exact ⟨[], rfl⟩
  | cons v vs ih =>
      obtain ⟨notes, hrest⟩ := ih fun w hw => h w (List.mem_cons_of_mem _ hw)
      obtain ⟨tag, us, os, htop⟩ := top_of_isInbound (h v List.mem_cons_self)
      obtain ⟨type, htype⟩ := htop.type
      rw [servableOnly_cons htop.tag htype (servable_eq htop.isNothing target) hrest]
      cases hpassed : passedOver target v with
      | true => exact ⟨_, by rw [List.filter_cons_of_neg (by simp [hpassed])]; rfl⟩
      | false => exact ⟨_, by rw [List.filter_cons_of_pos (by simp [hpassed])]; rfl⟩

theorem fit_ends {ctx : Fields} {vs : List Value} {target : String}
    (hinbounds : Fields.get ctx "inbounds" = .arr vs)
    (htarget : (Fields.get ctx "agent").get "coreType" = .str target)
    (h : ∀ v ∈ vs, v.isInbound = true) :
    (∃ r, fit a ctx = .ok r) ↔ ∀ v ∈ vs, passedOver target v = false → Fittable a v := by
  obtain ⟨notes, hserved⟩ := servableOnly_ends target h
  have hkept : ∀ v ∈ vs.filter (!passedOver target ·), v.isInbound = true :=
    fun v hv => h v (List.mem_filter.1 hv).1
  have hagent : (Fields.get ctx "agent").field "coreType" = .ok (.str target) := by
    rw [Value.field_eq_ok (Value.isNothing_of_get (by rw [htarget]; nofun)), htarget]
  have hfield : (Value.obj ctx).field "agent" = .ok (Fields.get ctx "agent") := rfl
  have hend : (∃ r, fit a ctx = .ok r) ↔
      ∃ r, fitInbounds a (vs.filter (!passedOver target ·)) = .ok r := by
    unfold fit
    rw [hinbounds]
    cases vs with
    | nil => exact iff_of_true ⟨_, rfl⟩ ⟨_, rfl⟩
    | cons v vs =>
        simp only [Value.itemsOrFault, bind, Except.bind, hfield, hagent, hserved]
        cases fitInbounds a _ <;> simp [pure, Except.pure]
  rw [hend, fitInbounds_ends hkept]
  simp [List.mem_filter]

end Context

/-! ## Listeners whose top was checked -/

theorem ServerRow.isInbound_of_mem (n : ServerRow) :
    ∀ v ∈ n.toServer.inbounds, v.isInbound = true := by
  rw [toServer, Value.arrayOfText_eq]
  exact fun v hv => (List.mem_filter.1 hv).2

/-- Of listeners whose top was checked, as that of stored ones always is: fitting a context to an
agent, writing a record for an engine and writing it for subscribers each come to an end exactly
on a condition of their own. Well-shaped listeners meet all conditions. -/
theorem checked_listeners_end_iff {a : Agent} {ctx : Fields} {vs : List Value} {target : String}
    (hinbounds : Fields.get ctx "inbounds" = .arr vs)
    (htarget : (Fields.get ctx "agent").get "coreType" = .str target)
    (h : ∀ v ∈ vs, v.isInbound = true) :
    ((∃ r, Context.fit a ctx = .ok r) ↔
      ∀ v ∈ vs, Context.passedOver target v = false → Context.Fittable a v) ∧
    (∀ v ∈ vs, ∀ e : Engine,
      (∀ index, (∃ r, e.writeRecord v index = .ok r) ↔ e.Writable v) ∧
      (∀ users, (∃ r, e.writeFor v users = .ok r) ↔ e.Writable (v.servedTo users)) ∧
      ((∃ i, Inbound.ofValue? v = some i) → Context.Fittable a v ∧ e.Writable v ∧
        ∀ users, e.Writable (v.servedTo users))) ∧
    ∀ n : ServerRow, ∀ v ∈ n.toServer.inbounds, v.isInbound = true := by
  refine ⟨Context.fit_ends hinbounds htarget h, fun v hv e => ?_, ServerRow.isInbound_of_mem⟩
  obtain ⟨tag, us, os, htop⟩ := top_of_isInbound (h v hv)
  refine ⟨Engine.writeRecord_ends htop e, Engine.writeFor_ends (h v hv) e, ?_⟩
  rintro ⟨i, hi⟩
  have hreads := Inbound.reads_iff.1 hi
  refine ⟨Context.fittable_of_reads hreads, e.writable_of_reads hreads, fun users => ?_⟩
  obtain ⟨j, hserved⟩ := hreads.servedTo users
  exact e.writable_of_reads hserved

/-- A listener with the top of one, and with null for its multiplexing. -/
def halfListener : Value :=
  .obj [("type", .str "vless"), ("tag", .str "in"), ("listen", .str "::"),
    ("listenPort", .int 443), ("multiplex", .null), ("users", .arr []), ("options", .obj []),
    ("requiredCapabilities", .arr [])]

/-- A listener without parts. -/
def bareListener : Inbound := ⟨"vless", "in", "::", 443, none, none, none, [], []⟩

def halfListeners : List Value := [halfListener, bareListener.toValue]

/-- A context for Xray with a half listener. -/
def halfContext : Fields :=
  [("agent", .obj [("coreType", .str "xray")]), ("inbounds", .arr halfListeners)]

/-- A row with a half listener and something that is none. -/
def halfRow : ServerRow :=
  ⟨"s", "h", none, "n", (Value.arr [halfListener, .null]).tightText, "", ""⟩

theorem checked_listeners_end_iff_half :
    Fields.get halfContext "inbounds" = .arr halfListeners ∧
    (Fields.get halfContext "agent").get "coreType" = .str "xray" ∧
    (∀ v ∈ halfListeners, v.isInbound = true) ∧
    (¬∃ r, Context.fit Context.plainAgent halfContext = .ok r) ∧
    (halfListener ∈ halfListeners ∧
      ¬∃ r, Engine.singBox.writeRecord halfListener 0 = .ok r) ∧
    (bareListener.toValue ∈ halfListeners ∧
      Inbound.ofValue? bareListener.toValue = some bareListener ∧
      ∀ users, ∃ r, Engine.xray.writeFor bareListener.toValue users = .ok r) ∧
    ∃ v ∈ halfRow.toServer.inbounds, v.isInbound = true := by
  have hchecked : ∀ v ∈ halfListeners, v.isInbound = true :=
    List.all_eq_true.1 (by decide +kernel : halfListeners.all Value.isInbound = true)
  have hhalf : halfListener ∈ halfListeners := List.mem_cons_self
  have hbare : bareListener.toValue ∈ halfListeners := List.mem_cons_of_mem _ List.mem_cons_self
  have hinbounds : Fields.get halfContext "inbounds" = .arr halfListeners := rfl
  have htarget : (Fields.get halfContext "agent").get "coreType" = .str "xray" := rfl
  obtain ⟨hfit, hwrite, hstored⟩ :=
    checked_listeners_end_iff (a := Context.plainAgent) hinbounds htarget hchecked
  have hread := Inbound.ofValue?_toValue bareListener
  obtain ⟨v, hv⟩ : ∃ v, v ∈ halfRow.toServer.inbounds := List.exists_mem_of_length_pos
    (by decide +kernel : 0 < halfRow.toServer.inbounds.length)
  refine ⟨hinbounds, htarget, hchecked, fun hends => ?_, ⟨hhalf, fun hends => ?_⟩,
    ⟨hbare, hread, fun users => ?_⟩, v, hv, hstored _ v hv⟩
  · exact (hfit.1 hends halfListener hhalf rfl).multiplex rfl
  · exact (((hwrite _ hhalf .singBox).1 0).1 hends).multiplex.1 rfl
  · obtain ⟨-, hwriteFor, hwhole⟩ := hwrite _ hbare .xray
    exact (hwriteFor users).2 ((hwhole ⟨_, hread⟩).2.2 users)

/-- The check of the top is not enough: nothing that deals with the half listener comes to an
end. -/
theorem half_listener_faults : halfListener.isInbound = true ∧
    (∃ fault, Context.fit Context.plainAgent halfContext = .error fault) ∧
    ∀ e : Engine, (∃ fault, e.writeRecord halfListener 0 = .error fault) ∧
      ∃ fault, e.writeFor halfListener .absent = .error fault := by
  refine ⟨rfl, ⟨_, rfl⟩, fun e => ?_⟩
  cases e with
  | singBox => exact ⟨⟨_, rfl⟩, _, rfl⟩
  | xray => exact ⟨⟨_, rfl⟩, _, rfl⟩

end ProxyFleet
