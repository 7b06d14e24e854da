import ProxyFleet.Proofs.Call.Beginning
import ProxyFleet.Proofs.Call.Settling

/-!
# What is done over a client

Events at a site are told apart by their client. A client is finished when it was
opened, used once at most, and closed; which of its dealings a piece of work may
change is what a site after it is `Tidied`, `Sent` or `HungUp` about.

`Tidied` is closed under doing one thing after the other: work that leaves no
call underway finishes the clients it opens, leaves the others alone and gives
back what it locks. A call leaves its client unfinished only between its two
halves.
-/

namespace ProxyFleet

/-- What was done over a client. -/
def Site.dealings (a : Site) (client : Nat) : List AgentEvent :=
  a.events.filter (·.client == client)

/-- The dealings over a client from its opening to its close: at most one thing is asked of the
agent, and the close comes last. -/
inductive AgentEvent.Finished (n : Nat) : List AgentEvent → Prop
  | idle (c : Connection) : Finished n [.connect n c, .close n]
  | asked (c : Connection) : Finished n [.connect n c, .getCores n, .close n]
  | switched (c : Connection) (r : SwitchRequest) :
      Finished n [.connect n c, .switchCore n r, .close n]

namespace Site

variable {a b c : Site} {P : Edit → Prop} {n : Nat} {call : OpenCall}

theorem dealings_of_events (h : b.events = a.events) : b.dealings n = a.dealings n := by
  rw [dealings, dealings, h]

@[simp] theorem dealings_signalled_self (a : Site) (e : AgentEvent) :
    (a.signalled e).dealings e.client = a.dealings e.client ++ [e] := by
  simp [signalled, dealings]

theorem dealings_signalled_other {e : AgentEvent} (h : e.client ≠ n) :
    (a.signalled e).dealings n = a.dealings n := by
  simp [signalled, dealings, h]

theorem dealings_connected_self (a : Site) (h : AgentHost) :
    (a.connected h).dealings a.opened =
      a.dealings a.opened ++ [.connect a.opened (a.desk.connection h)] :=
  dealings_signalled_self a (.connect a.opened (a.desk.connection h))

theorem dealings_connected_other {h : AgentHost} (hn : a.opened ≠ n) :
    (a.connected h).dealings n = a.dealings n :=
  dealings_signalled_other (e := .connect a.opened (a.desk.connection h)) hn

/-! ## Tidy work -/

/-- A site after work that leaves no call underway. -/
structure Tidied (a b : Site) : Prop where
  opened : a.opened ≤ b.opened
  held : b.desk.locks.held = a.desk.locks.held
  others : ∀ n, n < a.opened ∨ b.opened ≤ n → b.dealings n = a.dealings n
  mine : ∀ n, a.opened ≤ n → n < b.opened →
    ∃ l, AgentEvent.Finished n l ∧ b.dealings n = a.dealings n ++ l

theorem Tidied.of_same (hopened : b.opened = a.opened)
    (hheld : b.desk.locks.held = a.desk.locks.held) (hevents : b.events = a.events) :
    Tidied a b where
  opened := Nat.le_of_eq hopened.symm
  held := hheld
  others := fun _ _ => dealings_of_events hevents
  mine := fun n h1 h2 => by omega

theorem Tidied.trans (h1 : Tidied a b) (h2 : Tidied b c) : Tidied a c where
  opened := Nat.le_trans h1.opened h2.opened
  held := h2.held.trans h1.held
  others := fun n hn => by
    have hab := h1.opened
    have hbc := h2.opened
    rw [h2.others n (by omega), h1.others n (by omega)]
  mine := fun n hlow hhigh => by
    by_cases hn : n < b.opened
    · rw [h2.others n (Or.inl hn)]
      exact h1.mine n hlow hn
    · rw [← h1.others n (Or.inr (by omega))]
      exact h2.mine n (by omega) hhigh

instance : Std.Refl Tidied := ⟨fun _ => .of_same rfl rfl rfl⟩

instance : IsTrans Site Tidied := ⟨fun _ _ _ => Tidied.trans⟩

theorem Recorded.tidied (h : Recorded P a b) : Tidied a b :=
  .of_same h.opened (congrArg (·.locks.held) h.desk) h.events

/-- Work that finishes the one client it opens. -/
theorem Tidied.of_one {l : List AgentEvent} (hopened : b.opened = a.opened + 1)
    (hheld : b.desk.locks.held = a.desk.locks.held)
    (hothers : ∀ n, a.opened ≠ n → b.dealings n = a.dealings n)
    (hl : AgentEvent.Finished a.opened l)
    (hmine : b.dealings a.opened = a.dealings a.opened ++ l) : Tidied a b where
  opened := by omega
  held := hheld
  others := fun n hn => hothers n (by omega)
  mine := fun n hlow hhigh => by
    obtain rfl : n = a.opened := by omega
    exact ⟨l, hl, hmine⟩

/-! ## The two halves of a call -/

/-- A site after a call was opened: its request is with the agent, and its key is locked. -/
structure Sent (call : OpenCall) (a b : Site) : Prop where
  client : call.client = a.opened
  opened : b.opened = a.opened + 1
  free : a.desk.locks.isHeld call.claim.key = false
  held : b.desk.locks.held = a.desk.locks.held ++ [call.claim]
  others : ∀ n, a.opened ≠ n → b.dealings n = a.dealings n
  mine : ∃ connection, b.dealings a.opened = a.dealings a.opened ++
    [.connect a.opened connection, .switchCore a.opened call.request]

/-- A site after a call was settled: its client is closed and its key is free. -/
structure HungUp (call : OpenCall) (a b : Site) : Prop where
  opened : b.opened = a.opened
  held : b.desk.locks.held = a.desk.locks.held.filter (· != call.claim)
  others : ∀ n, call.client ≠ n → b.dealings n = a.dealings n
  mine : b.dealings call.client = a.dealings call.client ++ [.close call.client]

/-- Work away from the desk goes before a call unnoticed. -/
theorem Recorded.sent (h : Recorded P a b) (hs : Sent call b c) : Sent call a c where
  client := hs.client.trans h.opened
  opened := by rw [hs.opened, h.opened]
  free := by rw [← h.desk]; exact hs.free
  held := by rw [hs.held, h.desk]
  others := fun n hn => by
    rw [hs.others n (by rw [h.opened]; exact hn), dealings_of_events h.events]
  mine := by
    obtain ⟨connection, hmine⟩ := hs.mine
    rw [h.opened, dealings_of_events h.events] at hmine
    exact ⟨connection, hmine⟩

/-- A call opened and settled at once is tidy work. -/
theorem Sent.tidied (h1 : Sent call a b) (h2 : HungUp call b c) : Tidied a c := by
  have hfree : ∀ d ∈ a.desk.locks.held, d ≠ call.claim := fun d hd heq =>
    Locks.isHeld_eq_false.1 h1.free d hd (congrArg Claim.key heq)
  obtain ⟨connection, hmine⟩ := h1.mine
  refine .of_one (h2.opened.trans h1.opened) ?_ (fun n hn => ?_)
    (.switched connection call.request) ?_
  · rw [h2.held, h1.held, List.filter_append,
      List.filter_eq_self.2 fun d hd => by simpa using hfree d hd]
    simp
  · rw [h2.others n (by rw [h1.client]; exact hn), h1.others n hn]
  · rw [← h1.client, h2.mine, h1.client, hmine, List.append_assoc]
    rfl

end Site

namespace Work

variable {a b m : Site} {r : CallRequest} {p : Pending} {α : Type}

theorem check_tidied {result : Except Problem CheckedCall}
    (h : (check r).runAt a = (result, b)) : a.Tidied b := by
  have hchecked := Within.check r a
  rw [h] at hchecked
  exact hchecked.tidied

/-- A call that does not come about is tidy work. -/
theorem Beginning.tidied {q : Problem} (h : Beginning r a (.error q) b) : a.Tidied b := by
  cases h with
  | refused hcheck => exact check_tidied hcheck
  | present _ hcheck => exact check_tidied hcheck
  | @failed k m _ _ _ _ hcheck hopening =>
      refine (check_tidied hcheck).trans ?_
      cases hopening with
      | taken => exact refl_of Site.Tidied _
      | barred => exact .of_same rfl rfl rfl
      | unlogged =>
          refine .of_one rfl rfl (fun n hn => ?_) (.idle (m.desk.connection k.host)) ?_
          · exact (Site.dealings_signalled_other (e := .close m.opened) hn).trans
              (Site.dealings_connected_other hn)
          · refine (Site.dealings_signalled_self (m.connected k.host) (.close m.opened)).trans ?_
            change (m.connected k.host).dealings m.opened ++ _ = _
            rw [Site.dealings_connected_self, List.append_assoc]
            rfl

/-- A call that comes about is sent, and keeps the key of its target locked. -/
theorem Beginning.opened (h : Beginning r a (.ok p) b) :
    a.Sent p.call b ∧ p.call.claim.key = instanceKey p.target.1 p.target.2 ∧
      ∃ g ∈ a.store.hosts, g.id = p.target.1 := by
  cases h with
  | @sent k m _ new request c _ hcheck hopening hcall htarget =>
      have hchecked := Within.check r a
      rw [hcheck] at hchecked
      rw [hcall, htarget]
      refine ⟨?_, ?_, check_host hcheck⟩
      · refine hchecked.sent ?_
        cases hopening with
        | @sent log s n warnings hheld hbarrier hlog hmarked =>
            refine ⟨rfl, hmarked.opened, hheld, congrArg (·.locks.held) hmarked.desk,
              fun i hi => ?_, m.desk.connection k.host, ?_⟩
            · rw [Site.dealings_signalled_other (e := .switchCore m.opened request) hi,
                Site.dealings_of_events hmarked.events]
              exact Site.dealings_connected_other hi
            · have hsignal := Site.dealings_signalled_self n (.switchCore m.opened request)
              have hconnect := Site.dealings_connected_self m k.host
              refine hsignal.trans ?_
              rw [Site.dealings_of_events hmarked.events]
              refine (congrArg (· ++ [_]) hconnect).trans ?_
              rw [List.append_assoc]
              rfl
      · cases hopening
        rfl

theorem runAt_map_snd {β : Type} (w : Work α) (f : α → β) (a : Site) :
    ((w >>= fun x => pure (f x)).runAt a).2 = (w.runAt a).2 := by
  rw [runAt_bind]
  cases w.runAt a with
  | mk result b => cases result <;> rfl

theorem settle_hungUp (p : Pending) (e : CallEnd) (a : Site) :
    a.HungUp p.call ((settle p e).runAt a).2 := by
  have hparts : ∀ {β : Type} {c : OpenCall} {w : Work β}, Writes Edit.KeepsHosts w →
      a.HungUp c ((thenTidy (hangUp c) w).runAt a).2 := by
    intro β c w hw
    rw [runAt_thenHangUp]
    have hwrites := hw a
    refine ⟨hwrites.opened, ?_, fun i hi => ?_, ?_⟩
    · change (Locks.release _ _).held = _
      rw [hwrites.desk]
      rfl
    · exact (Site.dealings_signalled_other (e := .close c.client) hi).trans
        (Site.dealings_of_events hwrites.events)
    · refine (Site.dealings_signalled_self _ (.close c.client)).trans ?_
      rw [Site.dealings_of_events hwrites.events]
      rfl
  cases p with
  | start c instanceId =>
      obtain ⟨w, hw, hwrites⟩ := Within.settleStart_parts c instanceId e
      rw [settle, runAt_map_snd, hw]
      exact hparts hwrites
  | replace c previous =>
      obtain ⟨w, hw, hwrites⟩ := Within.settleSwitch_parts c previous e
      rw [settle, runAt_map_snd, hw]
      exact hparts hwrites

/-- A call settled at once is tidy work. -/
theorem perform_tidied (r : CallRequest) (e : CallEnd) : Within Site.Tidied (perform r e) := by
  intro a
  have hbegin := begin_beginning r a
  cases h : (begin r).runAt a with
  | mk result b =>
    rw [h] at hbegin
    cases result with
    | error q =>
        have hrun : (perform r e).runAt a = (.error q, b) := runAt_bind_of_error h
        rw [hrun]
        exact hbegin.tidied
    | ok p =>
        have hrun : (perform r e).runAt a = (settle p e).runAt b := runAt_bind_of_ok h
        rw [hrun]
        exact hbegin.opened.1.tidied (settle_hungUp p e b)

/-- Asking for the cores of a host is tidy work. -/
theorem getCores_tidied (hostId : String) (answer : Except Problem α) :
    Within Site.Tidied (getCores hostId answer) := by
  refine Within.bind (Within.callHost hostId) fun host a => ?_
  cases hbarrier : a.desk.barrier with
  | some why =>
      rw [runAt_bind_of_error (runAt_connect_barred hbarrier)]
      exact refl_of Site.Tidied a
  | none =>
      rw [runAt_bind_of_ok (runAt_connect_open hbarrier), runAt_bind_of_ok (runAt_signal _ _),
        runAt_bind_of_ok (runAt_signal _ _)]
      have hend : a.Tidied
          (((a.connected host).signalled (.getCores a.opened)).signalled (.close a.opened)) := by
        have hcores := Site.dealings_signalled_self (a.connected host) (.getCores a.opened)
        refine .of_one rfl rfl (fun n hn => ?_) (.asked (a.desk.connection host)) ?_
        · rw [Site.dealings_signalled_other (e := .close a.opened) hn,
            Site.dealings_signalled_other (e := .getCores a.opened) hn]
          exact Site.dealings_connected_other hn
        · refine (Site.dealings_signalled_self _ (.close a.opened)).trans ?_
          refine (congrArg (· ++ [_]) hcores).trans ?_
          refine (congrArg (· ++ [_] ++ [_]) (Site.dealings_connected_self a host)).trans ?_
          rw [List.append_assoc, List.append_assoc]
          rfl
      cases answer with
      | ok cores => exact hend
      | error p => exact hend

theorem tool_tidied (tool : Tool) (arguments : Fields) (agent : AgentSide) :
    Within Site.Tidied (tool.perform arguments agent) :=
  Within.tool Site.Recorded.tidied getCores_tidied tool arguments agent fun r _ =>
    perform_tidied r agent.switch

end Work

end ProxyFleet
