import ProxyFleet.Proofs.Run.Compatibility
import ProxyFleet.Proofs.Store.View

/-!
# What a context is made from

The context for a host holds the listeners of its servers and the users of their groups.
It holds all of them and no others: a listener is there if the text of a server lists it
and it looks like one, and a user once, however many servers share its group. Whether a
user has run out is found by comparing texts, and the text of an instant after the year
9999 comes before all texts of today. A user who would run out then counts as one who has
(`far_expiry_unlisted`).
-/

namespace ProxyFleet

open Instant (InFourDigits)

namespace Store

variable {s : Store} {hostId : String} {r : UserRow} {t : Instant}

/-- A server of a host has listeners and serves the group of a user. -/
def Serves (s : Store) (hostId : String) (r : UserRow) : Prop :=
  r.groupId ≠ none ∧ ∃ n ∈ s.rowsOf hostId, n.groupId = r.groupId ∧ n.listeners ≠ []

instance : Decidable (s.Serves hostId r) := inferInstanceAs (Decidable (_ ∧ _))

theorem isInGroup_served_iff :
    isInGroup (servedGroups (s.serversOf hostId)) r = true ↔ s.Serves hostId r := by
  rw [isInGroup_iff, Serves]
  constructor
  · rintro ⟨g, hg, hr⟩
    obtain ⟨n, hn, hgroup, hlisteners⟩ := mem_servedGroups.1 hg
    exact ⟨by rw [hr]; exact nofun, n, hn, hgroup.trans hr.symm, hlisteners⟩
  · rintro ⟨hsome, n, hn, hgroup, hlisteners⟩
    obtain ⟨g, hr⟩ := Option.ne_none_iff_exists'.1 hsome
    exact ⟨g, mem_servedGroups.2 ⟨n, hn, hgroup.trans hr, hlisteners⟩, hr⟩

/-- The rows of the servers of a host, by name, and by age among those of one name. -/
def serverRows (s : Store) (hostId : String) : List ServerRow :=
  sortBy (fun a b => textPairLe (a.name, a.createdAt) (b.name, b.createdAt)) (s.rowsOf hostId)

/-- The rows of the users that a host serves at a time, by address, and by age among those of one
address. -/
def userRows (s : Store) (hostId : String) (t : Instant) : List UserRow :=
  sortBy (fun a b => textPairLe (a.email, a.createdAt) (b.email, b.createdAt))
    (s.users.filter fun r =>
      isActive t.text r && isInGroup (servedGroups (s.serversOf hostId)) r)

theorem userRows_perm {expiry : UserRow → Option Instant} (ht : InFourDigits t.year)
    (husers : ∀ r ∈ s.users, r.expiresAt = (expiry r).map Instant.text) :
    (s.userRows hostId t).Perm (s.users.filter fun r => decide (r.enabled = true ∧
      (∀ x ∈ expiry r, t.milliseconds < x.milliseconds ∧ x.year ≤ 9999) ∧ s.Serves hostId r)) := by
  refine (sortBy_perm ..).trans (List.Perm.of_eq (List.filter_congr fun r hr => ?_))
  rw [Bool.eq_iff_iff, Bool.and_eq_true, decide_eq_true_iff, isActive_iff_before ht (husers r hr),
    isInGroup_served_iff, and_assoc]

theorem pairwise_userRows :
    (s.userRows hostId t).Pairwise fun r r' => textLe r.email r'.email = true := by
  have hsorted : (s.userRows hostId t).Pairwise fun r r' =>
      textPairLe (r.email, r.createdAt) (r'.email, r'.createdAt) = true :=
    pairwise_sortBy _ _ (fun _ _ _ => textPairLe_trans _ _ _) fun _ _ => textPairLe_total _ _
  exact hsorted.imp fun hle => textLe_of_textPairLe hle

end Store

/-! ## The context -/

/-- At any site and in any year of four digits, if users run out at no time or at one written as the
text of an instant, then the context for a host and a template holds as users the enabled ones that
do not run out before the next moment nor after the year 9999, and whose group is that of some
server of the host with a listener, each of them once, by address; and as listeners those of the
servers of the host that look like such, in the order of the servers. -/
theorem context_lists_served (a : Site) (hostId templateId : String) {h : AgentHost}
    {t : ConfigTemplate} (hhost : a.store.host? hostId = some h)
    (htemplate : a.store.template? templateId = some t) (hnow : InFourDigits a.now.year)
    (expiry : UserRow → Option Instant)
    (husers : ∀ r ∈ a.store.users, r.expiresAt = (expiry r).map Instant.text) :
    ∃ (context : Fields) (users : List UserRow) (servers : List ServerRow),
      (Work.templateContext hostId templateId).runAt a = (.ok context, a) ∧
      Fields.get context "users" = .arr (users.map fun r => r.toUser.toTemplateUser) ∧
      users.Perm (a.store.users.filter fun r => decide (r.enabled = true ∧
        (∀ x ∈ expiry r, a.now.milliseconds < x.milliseconds ∧ x.year ≤ 9999) ∧
        a.store.Serves hostId r)) ∧
      users.Pairwise (fun r r' => textLe r.email r'.email = true) ∧
      Fields.get context "inbounds" = .arr (servers.flatMap ServerRow.listeners) ∧
      servers.map ServerRow.toServer = a.store.serversOf hostId ∧
      servers.Perm (a.store.rowsOf hostId) ∧
      servers.Pairwise fun n n' =>
        textPairLe (n.name, n.createdAt) (n'.name, n'.createdAt) = true := by
  have hid : h.id = hostId := (Store.host?_ok hhost).1
  refine ⟨a.store.contextFor a.now h t, a.store.userRows hostId a.now, a.store.serverRows hostId,
    ?_, ?_, Store.userRows_perm hnow husers, Store.pairwise_userRows, ?_, rfl, sortBy_perm ..,
    pairwise_sortBy _ _ (fun _ _ _ => textPairLe_trans _ _ _) fun _ _ => textPairLe_total _ _⟩
  · rw [Work.templateContext, Work.runAt_bind_of_ok (Work.requireHost_runAt hhost),
      Work.runAt_bind_of_ok (Work.requireTemplate_runAt htemplate),
      Work.runAt_bind_of_ok (Work.runAt_now a), Work.runAt_ask]
  · have huserRows : (a.store.activeUsers (servedGroups (a.store.serversOf hostId)) a.now.text).map
        NodeUser.toTemplateUser = (a.store.userRows hostId a.now).map fun r =>
          r.toUser.toTemplateUser := List.map_map ..
    rw [← huserRows, ← hid]
    rfl
  · have hlisteners : (a.store.serversOf hostId).flatMap ServerNode.inbounds =
        (a.store.serverRows hostId).flatMap ServerRow.listeners := List.flatMap_map ..
    rw [← hlisteners, ← hid]
    rfl

/-! ## An instant after the year 9999 -/

namespace Traffic

/-- The start of the year 10000. -/
def farInstant : Instant := ⟨253402300800000⟩

def plainListener : Value :=
  .obj [("type", .str "socks"), ("tag", .str "in"), ("listen", .str "::"),
    ("listenPort", .int 1080), ("users", .arr []), ("options", .obj []),
    ("requiredCapabilities", .arr [])]

/-- A run in which a host gets a server with a listener and a record that is none, and the group of
the server a user that runs out at that instant, and one that never does. -/
def farRun : List Action :=
  [.tick ⟨1767225600000⟩,
    .edit (.createHost ⟨"node", "10.0.0.1", "token", "", "", [], [], none⟩),
    .edit (.createTemplate ⟨"plain", "xray", "\x7b\x7d", "", "", [], 1, true, ""⟩),
    .edit (.createServer ⟨"id-1", some "group", "server", [plainListener, .obj []]⟩),
    .edit (.createUser ⟨"u1", "ann@example.org", some "group", true, some farInstant.text⟩),
    .edit (.createUser ⟨"u2", "bob@example.org", some "group", true, none⟩)]

def farSite : Site := ((start .standard ⟨0⟩ "token").after farRun).site

/-- A user who never runs out is listed, and one who runs out after the year 9999 is not. -/
theorem far_expiry_unlisted :
    farSite.now.milliseconds < farInstant.milliseconds ∧
    farSite.store.users.map (fun r => (r.email, r.enabled, r.expiresAt)) =
      [("ann@example.org", true, some farInstant.text), ("bob@example.org", true, none)] ∧
    (∀ r ∈ farSite.store.users, farSite.store.Serves "id-1" r) ∧
    ((Work.templateContext "id-1" "id-2").runAt farSite).1.map (fun context =>
        ((Fields.get context "users").items?.getD []).map fun u => (u.get "email").text?) =
      .ok [some "bob@example.org"] := by
  decide +kernel

/-- The listener of the server is listed, and what is none is passed over. -/
theorem context_lists_served_far :
    InFourDigits farSite.now.year ∧ farInstant.year = 10000 ∧
    ∃ (context : Fields) (users : List UserRow) (servers : List ServerRow),
      (Work.templateContext "id-1" "id-2").runAt farSite = (.ok context, farSite) ∧
      Fields.get context "users" = .arr (users.map fun r => r.toUser.toTemplateUser) ∧
      users.Perm (farSite.store.users.filter fun r => decide (r.email = "bob@example.org")) ∧
      Fields.get context "inbounds" = .arr (servers.flatMap ServerRow.listeners) ∧
      servers.map ServerRow.toServer = farSite.store.serversOf "id-1" := by
  have hyear : InFourDigits farSite.now.year := ⟨by decide +kernel, by decide +kernel⟩
  obtain ⟨h, hhost⟩ : ∃ h, farSite.store.host? "id-1" = some h :=
    Option.isSome_iff_exists.1 (by decide +kernel)
  obtain ⟨t, htemplate⟩ : ∃ t, farSite.store.template? "id-2" = some t :=
    Option.isSome_iff_exists.1 (by decide +kernel)
  let expiry : UserRow → Option Instant := fun r =>
    if r.email = "ann@example.org" then some farInstant else none
  have husers : ∀ r ∈ farSite.store.users, r.expiresAt = (expiry r).map Instant.text := by
    decide +kernel
  obtain ⟨context, users, servers, hrun, hcontext, hlisted, -, hinbounds, hservers, -⟩ :=
    context_lists_served farSite "id-1" "id-2" hhost htemplate hyear expiry husers
  have hchosen : (farSite.store.users.filter fun r => decide (r.enabled = true ∧
        (∀ x ∈ expiry r, farSite.now.milliseconds < x.milliseconds ∧ x.year ≤ 9999) ∧
        farSite.store.Serves "id-1" r)) =
      farSite.store.users.filter fun r => decide (r.email = "bob@example.org") := by
    decide +kernel
  exact ⟨hyear, by decide +kernel, context, users, servers, hrun, hcontext, hchosen ▸ hlisted,
    hinbounds, hservers⟩

end Traffic

end ProxyFleet
