import Mathlib.Data.List.Nodup
import Mathlib.Data.List.Perm.Basic
import ProxyFleet.Proofs.Call.Dealings
import ProxyFleet.Proofs.Run.Store

/-!
# Calls underway over a run

At every moment the locks are held by the calls underway and by nobody else, each
call underway has asked for its switch and not yet closed its client, and every
other client is finished. This is what `Traffic.Tended` says. It is kept by tidy
work, by opening a call and by settling one, and there is nothing else.
-/

namespace ProxyFleet

/-- An entry that is looked up by its key, and the entries under other keys. -/
theorem perm_of_lookup {α β : Type} [BEq α] [LawfulBEq α] {k : α} {v : β} :
    ∀ {l : List (α × β)}, (l.map Prod.fst).Nodup → l.lookup k = some v →
      l.Perm ((k, v) :: l.filter (·.1 != k))
  | [], _, h => by cases h
  | (k', v') :: l, hnodup, h => by
      obtain ⟨hnew, hnodup⟩ := List.nodup_cons.1 hnodup
      by_cases hk : k = k'
      · subst hk
        rw [List.lookup_cons_self] at h
        cases h
        have hrest : l.filter (·.1 != k) = l := List.filter_eq_self.2 fun u hu => by
          have hne : u.1 ≠ k := fun heq => hnew (List.mem_map.2 ⟨u, hu, heq⟩)
          simpa using hne
        rw [List.filter_cons_of_neg (by simp), hrest]
      · have hlookup : l.lookup k = some v := by
          rw [List.lookup_cons, beq_eq_false_iff_ne.2 hk] at h
          exact h
        rw [List.filter_cons_of_pos (by simpa using fun heq => hk heq.symm)]
        exact ((perm_of_lookup hnodup hlookup).cons _).trans (.swap _ _ _)

namespace Traffic

/-- The claims of the calls underway. -/
def claims (t : Traffic) : List Claim := t.underway.map (·.2.call.claim)

/-- The clients of the calls underway. -/
def clients (t : Traffic) : List Nat := t.underway.map (·.2.call.client)

/-- A call underway keeps its target locked under the key of it, and its request is with the
agent. -/
structure Waiting (a : Site) (p : Pending) : Prop where
  key : p.call.claim.key = instanceKey p.target.1 p.target.2
  host : ∃ k, p.target.1 = Work.idOf k
  client : p.call.client < a.opened
  asked : ∃ connection, a.dealings p.call.client =
    [.connect p.call.client connection, .switchCore p.call.client p.call.request]

/-- A site whose locks and clients are those of the calls underway. -/
structure Tended (t : Traffic) : Prop where
  store : t.StoreOrderly
  labels : (t.underway.map Prod.fst).Nodup
  held : t.site.desk.locks.held.Perm t.claims
  keys : (t.claims.map Claim.key).Nodup
  clients : t.clients.Nodup
  waiting : ∀ u ∈ t.underway, Waiting t.site u.2
  finished : ∀ n < t.site.opened, n ∉ t.clients → AgentEvent.Finished n (t.site.dealings n)
  unused : ∀ n, t.site.opened ≤ n → t.site.dealings n = []

variable {t : Traffic} {b : Site} {label : String} {p : Pending}

namespace Tended

/-- A program that has just started has nothing underway, whatever store it found. -/
theorem of_fresh {a : Site} (hstore : a.store.Orderly a.issued)
    (hheld : a.desk.locks.held = []) (hopened : a.opened = 0) (hevents : a.events = []) :
    Tended ⟨a, []⟩ where
  store := hstore
  labels := List.nodup_nil
  held := hheld ▸ List.Perm.refl []
  keys := List.nodup_nil
  clients := List.nodup_nil
  waiting := fun _ hu => absurd hu List.not_mem_nil
  finished := fun n hn => absurd (hopened ▸ hn) (Nat.not_lt_zero n)
  unused := fun n _ => by
    change a.events.filter (·.client == n) = []
    rw [hevents]
    rfl

/-- Tidy work leaves the calls underway as they are. -/
theorem tidied (h : t.Tended) (hb : t.site.Tidied b) (hstore : b.store.Orderly b.issued) :
    Tended { t with site := b } where
  store := hstore
  labels := h.labels
  held := by
    have hheld := hb.held ▸ h.held
    exact hheld
  keys := h.keys
  clients := h.clients
  waiting := fun u hu => by
    obtain ⟨hkey, hhost, hclient, connection, hasked⟩ := h.waiting u hu
    refine ⟨hkey, hhost, Nat.lt_of_lt_of_le hclient hb.opened, connection, ?_⟩
    exact (hb.others _ (Or.inl hclient)).trans hasked
  finished := fun n hn hother => by
    -- an old client was left alone, a new one has finished on the way
    by_cases hold : n < t.site.opened
    · change AgentEvent.Finished n (b.dealings n)
      rw [hb.others n (Or.inl hold)]
      exact h.finished n hold hother
    · obtain ⟨l, hl, hmine⟩ := hb.mine n (by omega) hn
      change AgentEvent.Finished n (b.dealings n)
      rw [hmine, h.unused n (by omega)]
      exact hl
  unused := fun n hn => by
    have hopened := hb.opened
    exact (hb.others n (Or.inr hn)).trans (h.unused n (Nat.le_trans hopened hn))

/-- A call that is opened is underway from then on. -/
theorem sent (h : t.Tended) (hlabel : label ∉ t.underway.map Prod.fst)
    (hb : t.site.Sent p.call b) (hkey : p.call.claim.key = instanceKey p.target.1 p.target.2)
    (hhost : ∃ k, p.target.1 = Work.idOf k) (hstore : b.store.Orderly b.issued) :
    Tended { site := b, underway := (label, p) :: t.underway } where
  store := hstore
  labels := List.nodup_cons.2 ⟨hlabel, h.labels⟩
  held := by
    rw [hb.held]
    exact (h.held.append_right _).trans (List.perm_append_singleton _ _)
  keys := by
    refine List.nodup_cons.2 ⟨fun hmem => ?_, h.keys⟩
    obtain ⟨c, hc, hck⟩ := List.mem_map.1 hmem
    exact Locks.isHeld_eq_false.1 hb.free c (h.held.mem_iff.2 hc) hck
  clients := by
    refine List.nodup_cons.2 ⟨fun hmem => ?_, h.clients⟩
    obtain ⟨u, hu, huc⟩ := List.mem_map.1 hmem
    have hclient := (h.waiting u hu).client
    rw [huc] at hclient
    exact Nat.ne_of_lt hclient hb.client
  waiting := fun u hu => by
    have hopened := hb.opened
    rcases List.mem_cons.1 hu with rfl | hu
    · -- the client of the call has a number of its own, so nothing was done over it before
      obtain ⟨connection, hmine⟩ := hb.mine
      have hclient := hb.client
      rw [h.unused _ (Nat.le_refl _), ← hclient] at hmine
      exact ⟨hkey, hhost, by dsimp only; omega, connection, hmine⟩
    · obtain ⟨hkey', hhost', hclient, connection, hasked⟩ := h.waiting u hu
      refine ⟨hkey', hhost', by dsimp only; omega, connection, ?_⟩
      rw [← hasked]
      exact hb.others _ (by omega)
  finished := fun n hn hother => by
    have hopened := hb.opened
    have hclient := hb.client
    dsimp only at hn
    simp only [Traffic.clients, List.map_cons, List.mem_cons, not_or] at hother
    have hdealings := hb.others n (by omega)
    dsimp only
    rw [hdealings]
    exact h.finished n (by omega) hother.2
  unused := fun n hn => by
    have hopened := hb.opened
    dsimp only at hn ⊢
    rw [hb.others n (by omega)]
    exact h.unused n (by omega)

/-- A call that is settled is underway no more. -/
theorem hungUp (h : t.Tended) (hlookup : t.underway.lookup label = some p)
    (hb : t.site.HungUp p.call b) (hstore : b.store.Orderly b.issued) :
    Tended { site := b, underway := t.underway.filter (·.1 != label) } := by
  have hsplit := perm_of_lookup h.labels hlookup
  generalize t.underway.filter (·.1 != label) = rest at hsplit ⊢
  have hlabels : ((label, p) :: rest).map Prod.fst |>.Nodup :=
    (hsplit.map _).nodup_iff.1 h.labels
  have hkeys : (p.call.claim.key :: rest.map (·.2.call.claim.key)).Nodup := by
    have hmapped := h.keys
    rw [claims, List.map_map] at hmapped
    exact (hsplit.map _).nodup_iff.1 hmapped
  have hclients : (p.call.client :: rest.map (·.2.call.client)).Nodup :=
    (hsplit.map _).nodup_iff.1 h.clients
  have hmem : ∀ u ∈ rest, u ∈ t.underway := fun u hu =>
    hsplit.mem_iff.2 (List.mem_cons_of_mem _ hu)
  have hwaiting := h.waiting (label, p) (hsplit.mem_iff.2 List.mem_cons_self)
  refine ⟨hstore, (List.nodup_cons.1 hlabels).2, ?_, ?_, (List.nodup_cons.1 hclients).2,
    fun u hu => ?_, fun n hn hother => ?_, fun n hn => ?_⟩
  · -- the claims of the others are all different from the one that is taken back
    have hclaims : t.site.desk.locks.held.Perm (p.call.claim :: rest.map (·.2.call.claim)) :=
      h.held.trans (hsplit.map _)
    have hdifferent : ∀ c ∈ rest.map (·.2.call.claim), c ≠ p.call.claim := by
      intro c hc heq
      obtain ⟨u, hu, rfl⟩ := List.mem_map.1 hc
      exact (List.nodup_cons.1 hkeys).1 (List.mem_map.2 ⟨u, hu, congrArg Claim.key heq⟩)
    have hothers : (rest.map (·.2.call.claim)).filter (· != p.call.claim)
        = rest.map (·.2.call.claim) :=
      List.filter_eq_self.2 fun c hc => by simpa using hdifferent c hc
    have hfiltered := hclaims.filter (· != p.call.claim)
    rw [List.filter_cons_of_neg (by simp), hothers] at hfiltered
    rw [hb.held]
    exact hfiltered
  · rw [claims, List.map_map]
    exact (List.nodup_cons.1 hkeys).2
  · obtain ⟨hkey, hhost, hclient, connection, hasked⟩ := h.waiting u (hmem u hu)
    have hne : p.call.client ≠ u.2.call.client := fun heq =>
      (List.nodup_cons.1 hclients).1 (heq ▸ List.mem_map.2 ⟨u, hu, rfl⟩)
    refine ⟨hkey, hhost, hb.opened ▸ hclient, connection, ?_⟩
    exact (hb.others _ hne).trans hasked
  · dsimp only at hn ⊢
    rw [hb.opened] at hn
    by_cases hpn : p.call.client = n
    · obtain ⟨connection, hasked⟩ := hwaiting.asked
      subst hpn
      rw [hb.mine, hasked]
      exact .switched connection p.call.request
    · rw [hb.others n hpn]
      refine h.finished n hn fun hmine => ?_
      rcases List.mem_cons.1 ((hsplit.map _).mem_iff.1 hmine) with heq | hrest
      · exact hpn heq.symm
      · exact hother hrest
  · dsimp only at hn ⊢
    have hclient := hwaiting.client
    rw [hb.opened] at hn
    rw [hb.others n (by dsimp only at hclient; omega)]
    exact h.unused n hn

end Tended

/-! ## Over a run -/

theorem begin_tended (r : CallRequest) (h : t.Tended) (hlookup : t.underway.lookup label = none)
    (hstore : (t.begin label r).2.StoreOrderly) : (t.begin label r).2.Tended := by
  have hnew : ∀ u ∈ t.underway, u.1 ≠ label := fun u hu heq => by
    have hne := List.lookup_eq_none_iff.1 hlookup u hu
    simp [heq] at hne
  have hkept : t.underway.filter (·.1 != label) = t.underway :=
    List.filter_eq_self.2 fun u hu => by simpa using hnew u hu
  cases hresult : (t.begin label r).1 with
  | error q =>
      obtain ⟨b, hbegin, ht⟩ := begin_error hresult
      rw [ht] at hstore ⊢
      exact h.tidied hbegin.tidied hstore
  | ok p =>
      obtain ⟨b, hbegin, ht⟩ := begin_ok hresult
      obtain ⟨hsent, hkey, g, hg, hgid⟩ := hbegin.opened
      obtain ⟨k, -, hk⟩ := h.store.host g hg
      rw [ht] at hstore ⊢
      rw [hkept]
      refine h.sent (fun hmem => ?_) hsent hkey ⟨k, hgid.symm.trans hk⟩ hstore
      obtain ⟨u, hu, hul⟩ := List.mem_map.1 hmem
      exact hnew u hu hul

theorem act_tended (t : Traffic) (a : Action) (h : t.Tended) : (t.act a).Tended := by
  have hstore := act_orderly t a h.store
  have htidy : ∀ {b : Site}, t.site.Tidied b → b.store.Orderly b.issued →
      Tended { t with site := b } := fun hb hs => h.tidied hb hs
  cases a with
  | begin label r =>
      simp only [act] at hstore ⊢
      cases hlookup : t.underway.lookup label with
      | some p => exact h
      | none =>
          rw [hlookup] at hstore
          exact begin_tended r h hlookup hstore
  | settle label e =>
      simp only [act] at hstore ⊢
      cases hlookup : t.underway.lookup label with
      | none => simpa only [Traffic.settle, hlookup] using h
      | some p =>
          simp only [Traffic.settle, hlookup] at hstore ⊢
          exact h.hungUp hlookup (Work.settle_hungUp p e t.site) hstore
  | deleteInstance hostId instanceId =>
      exact htidy (Work.Within.deleteInstance hostId instanceId t.site).tidied hstore
  | tool name arguments agent =>
      have hsite : t.site.Tidied (callTool t name arguments agent).2.site :=
        Work.Within.callTool (fun tool a agent => Work.tool_tidied tool a agent) t name arguments
          agent
      have hcall : (callTool t name arguments agent).2 =
          { t with site := (callTool t name arguments agent).2.site } := by
        unfold callTool
        split
        · split <;> rfl
        · rfl
      rw [act, hcall]
      exact htidy hsite hstore
  | edit e => exact htidy (Work.Within.edit (P := fun _ => True) trivial t.site).tidied hstore
  | breakWrites table event status message => exact htidy (.of_same rfl rfl rfl) hstore
  | mendWrites => exact htidy (.of_same rfl rfl rfl) hstore
  | bar why => exact htidy (.of_same rfl rfl rfl) hstore
  | tick now => exact htidy (.of_same rfl rfl rfl) hstore
  | restart => exact .of_fresh hstore rfl rfl rfl

theorem tended (rpc : RpcSettings) (now : Instant) (spareToken : String)
    (actions : List Action) : ((start rpc now spareToken).after actions).Tended :=
  after_of_act act_tended actions (.of_fresh (start_orderly rpc now spareToken) rfl rfl rfl)

end Traffic

end ProxyFleet
