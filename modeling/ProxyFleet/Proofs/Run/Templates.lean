import ProxyFleet.Proofs.Run.Compatibility
import ProxyFleet.Proofs.Store.Checked

/-!
# Templates over a run

Templates are written, changed and deleted by three services. A change may name the text,
the type, both or neither, and the template is checked again just if it names one of
them, with the other one as it is stored. So whatever calls are made, each stored
template carries what came of checking it as it is. A call that fails does so before it
writes, or because the write found nothing to change, and leaves the store as it was.
-/

namespace ProxyFleet

namespace Work

variable {α β γ : Type} {S : Store → Prop} {a : Site}

/-- Work at a site that leaves the store in some state if it is done, and as it was if it fails. -/
structure Leaves (S : Store → Prop) (w : Work α) (a : Site) : Prop where
  done : ∀ x b, w.runAt a = (.ok x, b) → S b.store
  failed : ∀ p b, w.runAt a = (.error p, b) → b.store = a.store

namespace Leaves

theorem pure {x : α} (h : S a.store) : Leaves S (pure x : Work α) a where
  done _ _ hrun := by
    cases hrun
    exact h
  failed _ _ hrun := by cases hrun

theorem refuse (f : Failure) : Leaves S (Work.refuse f : Work α) a where
  done _ _ hrun := by cases hrun
  failed _ _ hrun := by
    cases hrun
    rfl

theorem refuseIf {c : Prop} [Decidable c] {f : Failure} {w : Work α} (h : ¬c → Leaves S w a) :
    Leaves S (if c then Work.refuse f >>= fun _ : PUnit => w else w) a := by
  split
  · exact refuse f
  · next hc => exact h hc

/-- Work that is known to give a result without touching the site. -/
theorem bind_of_ok {w : Work α} {f : α → Work β} {x : α} (hw : w.runAt a = (.ok x, a))
    (h : Leaves S (f x) a) : Leaves S (w >>= f) a where
  done y b hrun := h.done y b (runAt_bind_of_ok hw ▸ hrun)
  failed p b hrun := h.failed p b (runAt_bind_of_ok hw ▸ hrun)

theorem bind_of_error {w : Work α} {f : α → Work β} {p : Problem}
    (hw : w.runAt a = (.error p, a)) : Leaves S (w >>= f) a where
  done y b hrun := by
    rw [runAt_bind_of_error hw] at hrun
    cases hrun
  failed p b hrun := by
    rw [runAt_bind_of_error hw] at hrun
    cases hrun
    rfl

theorem ofResult {r : Except Failure α} {f : α → Work β}
    (h : ∀ x, r = .ok x → Leaves S (f x) a) : Leaves S (Work.ofResult r >>= f) a := by
  cases r with
  | error e => exact bind_of_error rfl
  | ok x => exact bind_of_ok rfl (h x rfl)

/-- What is given is checked, and what is not given stays so. -/
theorem optionMapM {g : α → Except Failure β} {o : Option α} {f : Option β → Work γ}
    (h : ∀ y, (∀ z ∈ y, ∃ x, g x = .ok z) → Leaves S (f y) a) :
    Leaves S (o.mapM (fun x => Work.ofResult (g x)) >>= f) a := by
  cases o with
  | none => exact bind_of_ok rfl (h none nofun)
  | some x =>
      cases hg : g x with
      | error e => exact bind_of_error (p := .failure e) (by rw [Option.mapM_some, hg]; rfl)
      | ok y =>
          refine bind_of_ok (x := some y) (by rw [Option.mapM_some, hg]; rfl) (h _ fun z hz => ?_)
          exact ⟨x, Option.some.inj hz ▸ hg⟩

theorem requireTemplate {id : String} {f : ConfigTemplate → Work α}
    (h : ∀ t, a.store.template? id = some t → Leaves S (f t) a) :
    Leaves S (Work.requireTemplate id >>= f) a := by
  cases ht : a.store.template? id with
  | none => exact bind_of_error (requireTemplate_missing ht)
  | some t => exact bind_of_ok (requireTemplate_runAt ht) (h t ht)

theorem create {f : Store → String → Instant → Except StoreError (α × Store)}
    (h : ∀ id x s, f a.store id a.now = .ok (x, s) → S s) : Leaves S (Work.create f) a := by
  cases hf : f a.store (idOf (a.issued + 1)) a.now with
  | error e =>
      constructor <;> intro r b hb <;> rw [runAt_create_error hf] at hb <;> cases hb
      rfl
  | ok r =>
      obtain ⟨x, s⟩ := r
      constructor <;> intro r b hb <;> rw [runAt_create_ok hf] at hb <;> cases hb
      exact h _ _ _ hf

/-- A write is followed by a result, or by a refusal if it changed nothing. -/
theorem write {f : Store → Instant → Except StoreError (α × Store)} {k : α → Work β}
    (h : ∀ x s, f a.store a.now = .ok (x, s) →
      (∃ y, k x = Pure.pure y) ∧ S s ∨ (∃ e, k x = Work.refuse e) ∧ s = a.store) :
    Leaves S (Work.write f >>= k) a := by
  cases hf : f a.store a.now with
  | error e => exact bind_of_error (runAt_write_error hf)
  | ok r =>
      obtain ⟨x, s⟩ := r
      have hwrite := runAt_write_ok hf
      rcases h x s hf with ⟨⟨y, hk⟩, hs⟩ | ⟨⟨e, hk⟩, rfl⟩
      · constructor <;> intro z b hb <;> rw [runAt_bind_of_ok hwrite, hk] at hb <;> cases hb
        exact hs
      · constructor <;> intro z b hb <;> rw [runAt_bind_of_ok hwrite, hk] at hb <;> cases hb
        rfl

end Leaves

end Work

def Store.TemplatesSound (s : Store) : Prop := ∀ r ∈ s.templates, r.Sound

namespace Work

variable {a : Site}

/-! ## The three services -/

theorem createTemplate_leaves (hsound : a.store.TemplatesSound) (r : TemplateRequest) :
    Leaves Store.TemplatesSound (createTemplate r) a := by
  refine .refuseIf fun hname => .ofResult fun type _ => .refuseIf fun hcontent =>
    .ofResult fun minVersion hversion => .create fun id x s h => ?_
  rcases Store.createTemplate_rows (e := type) rfl h with hrows | ⟨row, hrows, rfl, hfields⟩
  · intro q hq
    exact hsound q (hrows ▸ hq)
  · obtain ⟨hn, hc, hm, hv, he⟩ := hfields
    have hrow : row.Sound := {
      type := row.type.name_cases
      isValid := by rw [hv, hc]
      validationError := by rw [he, hc]
      name := by rw [hn]; exact isAllBlank_trim hname
      content := by rw [hc]; exact Bool.eq_false_iff.2 hcontent
      minVersion := by rw [hm]; exact checkMinVersion_ok hversion }
    intro q hq
    rw [hrows, List.mem_append, List.mem_singleton] at hq
    rcases hq with hq | rfl
    · exact hsound q hq
    · exact hrow

/-- After an edit, the verdict is that on the text and the type as they are then. -/
theorem verdictAfter_sound {old : TemplateRow} (hold : old.Sound) (content : Option String)
    (type : Option Engine) :
    let verdict := verdictAfter old.toTemplate content type
    let now := Template.check (content.getD old.content) (type.getD old.type).name
    (verdict.map Verdict.valid).getD old.isValid = now.valid ∧
      (verdict.map Verdict.firstError).getD old.validationError = now.firstError := by
  cases content <;> cases type
  · exact ⟨hold.isValid, hold.validationError⟩
  all_goals exact ⟨rfl, rfl⟩

theorem updateTemplate_leaves (hsound : a.store.TemplatesSound) (id : String) (r : TemplateEdit) :
    Leaves Store.TemplatesSound (updateTemplate id r) a := by
  refine .requireTemplate fun current hcurrent => .refuseIf fun hname => .optionMapM fun type _ =>
    .refuseIf fun hcontent => .optionMapM fun minVersion hversion => .write fun x s h => ?_
  rcases Store.updateTemplate_rows type rfl h with
    ⟨rfl, rfl⟩ | ⟨hx, old, row, hfound, hrows, htype, hn, hc, hm, hv, he⟩
  · exact Or.inr ⟨⟨_, rfl⟩, rfl⟩
  · obtain ⟨t, rfl⟩ := Option.isSome_iff_exists.1 hx
    refine Or.inl ⟨⟨t, rfl⟩, fun q hq => ?_⟩
    have hold : old.Sound := hsound old (List.mem_of_find?_eq_some hfound)
    -- what was read for the check is the row that the write finds
    obtain rfl : old.toTemplate = current := by
      rw [Store.template?, hfound] at hcurrent
      exact Option.some.inj hcurrent
    obtain ⟨hvalid, hfirst⟩ := verdictAfter_sound hold r.content type
    have hrow : row.Sound := {
      type := row.type.name_cases
      isValid := by rw [hv, hc, htype]; exact hvalid
      validationError := by rw [he, hc, htype]; exact hfirst
      name := by
        rw [hn]
        cases hgiven : r.name with
        | none => exact hold.name
        | some name =>
            rw [hgiven] at hname
            exact isAllBlank_trim fun hblank => hname (congrArg some hblank)
      content := by
        rw [hc]
        cases hgiven : r.content with
        | none => exact hold.content
        | some content =>
            rw [hgiven] at hcontent
            exact Bool.eq_false_iff.2 hcontent
      minVersion := by
        rw [hm]
        cases minVersion with
        | none => exact hold.minVersion
        | some m =>
            obtain ⟨text, htext⟩ := hversion m rfl
            exact checkMinVersion_ok htext }
    rw [hrows] at hq
    obtain ⟨q', hq', rfl⟩ := Store.mem_mapRow.1 hq
    split
    · exact hrow
    · exact hsound q' hq'

theorem deleteTemplate_leaves (hsound : a.store.TemplatesSound) (id : String) :
    Leaves Store.TemplatesSound (deleteTemplate id) a := by
  refine .write fun removed s h => ?_
  obtain ⟨⟨t, b⟩, hremove, heq⟩ := Store.map_ok h
  cases heq
  rcases Store.removeTemplate_rows hremove with ⟨rfl, rfl⟩ | ⟨rfl, hrows⟩
  · -- it is the write that finds the template missing, and so changes nothing
    exact Or.inr ⟨⟨_, rfl⟩, rfl⟩
  · refine Or.inl ⟨⟨_, rfl⟩, fun q hq => ?_⟩
    rw [hrows] at hq
    exact hsound q (List.mem_of_mem_filter hq)

end Work

/-! ## Runs -/

inductive TemplateCall where
  | create (r : TemplateRequest)
  | update (id : String) (r : TemplateEdit)
  | delete (id : String)
  deriving DecidableEq, Repr

/-- What a call does; nothing but whether it fails is told of what comes of it. -/
def TemplateCall.work : TemplateCall → Work Unit
  | .create r => do let _ ← Work.createTemplate r
  | .update id r => do let _ ← Work.updateTemplate id r
  | .delete id => Work.deleteTemplate id

/-- A site after some of these calls, done or failed; whatever else happens between them leaves the
templates as they are. -/
inductive Site.TemplateRun (a : Site) : Site → Prop
  | refl : Site.TemplateRun a a
  | call {b : Site} (c : TemplateCall) : Site.TemplateRun a b →
      Site.TemplateRun a (c.work.runAt b).2
  | other {b c : Site} : Site.TemplateRun a b → c.store.templates = b.store.templates →
      Site.TemplateRun a c

namespace Work

variable {α : Type} {S : Store → Prop} {a : Site}

theorem Leaves.discard {w : Work α} (h : Leaves S w a) : Leaves S (do let _ ← w) a where
  done x b hrun := by
    obtain ⟨y, m, hw, hrest⟩ := runAt_bind_ok hrun
    cases hrest
    exact h.done y b hw
  failed p b hrun := by
    rcases runAt_bind_error hrun with hw | ⟨y, m, -, hrest⟩
    · exact h.failed p b hw
    · cases hrest

/-- Every call leaves sound templates, and none of them otherwise than they were if it fails. -/
theorem call_leaves (hsound : a.store.TemplatesSound) (c : TemplateCall) :
    Leaves Store.TemplatesSound c.work a := by
  cases c with
  | create r => exact (createTemplate_leaves hsound r).discard
  | update id r => exact (updateTemplate_leaves hsound id r).discard
  | delete id => exact deleteTemplate_leaves hsound id

theorem call_sound (hsound : a.store.TemplatesSound) (c : TemplateCall) :
    (c.work.runAt a).2.store.TemplatesSound := by
  have hleaves := call_leaves hsound c
  cases hrun : c.work.runAt a with
  | mk r b =>
      cases r with
      | ok x => exact hleaves.done x b hrun
      | error p =>
          have hsame : b.store = a.store := hleaves.failed p b hrun
          exact hsame ▸ hsound

end Work

/-- Over every run of calls that write, change and delete templates, done or failed, with any
arguments: if what was kept with templates before fits, as it does where there are none, then so it
does with every template afterwards; and a call that fails leaves the whole store as it was. -/
theorem templates_sound (a b : Site) (hrun : a.TemplateRun b)
    (hsound : a.store.TemplatesSound) :
    (∀ r ∈ b.store.templates, r.Sound) ∧
    ∀ (c : TemplateCall) (p : Problem), (c.work.runAt b).1 = .error p →
      (c.work.runAt b).2.store = b.store := by
  have hb : b.store.TemplatesSound := by
    induction hrun with
    | refl => exact hsound
    | call c _ ih => exact Work.call_sound ih c
    | other _ hsame ih => exact fun r hr => ih r (hsame ▸ hr)
  exact ⟨hb, fun c p hp => (Work.call_leaves hb c).failed p _ (Prod.ext hp rfl)⟩

namespace Traffic

/-- A template that passes its check is written, and then given a text that does not. -/
def spoilingCalls : List TemplateCall :=
  [.create ⟨"plain", "xray", some "\x7b\"inbounds\": [], \"outbounds\": [], \"log\": \x7b\x7d\x7d",
      none, none, none⟩,
    .update "id-1" ⟨none, none, some quietTemplate, none, none, none⟩]

/-- A change of the text back, with a least version that is none. -/
def refusedCall : TemplateCall :=
  .update "id-1" ⟨none, none, some "\x7b\x7d", none, some "soon", none⟩

def spoiledSite (count : Nat) : Site :=
  (spoilingCalls.take count).foldl (fun a c => (c.work.runAt a).2)
    (start .standard ⟨0⟩ "token").site

/-- The verdict is that on the second text, and stays so after a call that is refused. -/
theorem templates_sound_spoiled :
    (spoiledSite 1).store.templates.map (·.isValid) = [true] ∧
    (spoiledSite 2).store.templates.map (fun r => (r.content, r.isValid)) =
      [(quietTemplate, false)] ∧
    (∀ r ∈ (spoiledSite 2).store.templates, r.Sound) ∧
    (refusedCall.work.runAt (spoiledSite 2)).1 =
      .error (.failure (.invalid (.badMinVersion "soon"))) ∧
    (refusedCall.work.runAt (spoiledSite 2)).2.store = (spoiledSite 2).store := by
  have hrun : (start .standard ⟨0⟩ "token").site.TemplateRun (spoiledSite 2) :=
    .call _ (.call _ .refl)
  obtain ⟨hsound, hfailed⟩ := templates_sound _ _ hrun nofun
  have hrefused : (refusedCall.work.runAt (spoiledSite 2)).1 =
      .error (.failure (.invalid (.badMinVersion "soon"))) := by decide +kernel
  exact ⟨by decide +kernel, by decide +kernel, hsound, hrefused, hfailed _ _ hrefused⟩

end Traffic

end ProxyFleet
