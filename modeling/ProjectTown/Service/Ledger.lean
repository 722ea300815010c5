import ProjectTown.Service.Outcomes

/-!
# What every call keeps

Whatever calls are made, a quest's projection is the one its newest event leads
to, and versions fall along the log. So a projection that some event led to is
the current one as soon as it has the current version: a compare-and-swap that
succeeds on a projection a thread has read was made on that very projection.

`Later` is what only grows, and `Aside` what nobody does in another thread's name.
Together they are what a thread can rely on between two of its calls.
-/

namespace ProjectTown.Service

open Json (Value Fields)
open Interleave (Tid Prog)
open Transact

/-! ## Written events -/

section
variable (s : World) (t : Tid) (quest_id : String) (e : EventRow)

@[simp] theorem push_quest : (s.push t quest_id e).quest = update s.quest quest_id (some e.after) := rfl
@[simp] theorem push_events :
    (s.push t quest_id e).events = update s.events quest_id (e :: s.events quest_id) := rfl
theorem push_own : (s.push t quest_id e).own
    = if e.event_type = .toolCommitted then s.own else update s.own t (some e) := rfl
theorem push_late : (s.push t quest_id e).late
    = if s.lost t then update s.late t (s.late t ++ [.append e.event_type]) else s.late := rfl
@[simp] theorem push_lost : (s.push t quest_id e).lost = s.lost := rfl
@[simp] theorem push_beating : (s.push t quest_id e).beating = s.beating := rfl
@[simp] theorem push_writing : (s.push t quest_id e).writing = s.writing := rfl
@[simp] theorem push_serving : (s.push t quest_id e).serving = s.serving := rfl
@[simp] theorem push_ready : (s.push t quest_id e).ready = s.ready := rfl
@[simp] theorem push_closed : (s.push t quest_id e).closed = s.closed := rfl
@[simp] theorem push_actions : (s.push t quest_id e).actions = s.actions := rfl
@[simp] theorem push_decisions : (s.push t quest_id e).decisions = s.decisions := rfl
@[simp] theorem push_plans : (s.push t quest_id e).plans = s.plans := rfl
@[simp] theorem push_baselines : (s.push t quest_id e).baselines = s.baselines := rfl
@[simp] theorem push_leases : (s.push t quest_id e).leases = s.leases := rfl
@[simp] theorem push_resource_leases :
    (s.push t quest_id e).resource_leases = s.resource_leases := rfl
@[simp] theorem push_reviews : (s.push t quest_id e).reviews = s.reviews := rfl

end

section
variable (t : Tid) (quest_id : String)

/-- What one event leaves alone, the events of a transaction leave alone. -/
theorem pushAll_frame {α : Type} (f : World → α)
    (hf : ∀ s e, f (s.push t quest_id e) = f s) :
    ∀ (evs : List (EventType × Patch)) (q : Quest) (s : World),
      f (pushAll t quest_id q evs s) = f s
  | [], _, _ => rfl
  | _ :: rest, _, s => (pushAll_frame f hf rest _ _).trans (hf s _)

@[simp] theorem pushAll_events (q : Quest) (evs : List (EventType × Patch)) (s : World) :
    (pushAll t quest_id q evs s).events
      = update s.events quest_id (rowsOn q evs ++ s.events quest_id) := by
  induction evs generalizing q s with
  | nil => funext x; by_cases h : x = quest_id <;> simp [pushAll, rowsOn, update, h]
  | cons e rest ih =>
      obtain ⟨ty, p⟩ := e
      simp only [pushAll, rowsOn, ih, push_events, update_self, List.append_assoc,
        List.singleton_append]
      funext x
      by_cases h : x = quest_id <;> simp [update, h]

variable (q : Quest) (evs : List (EventType × Patch)) (s : World)

@[simp] theorem pushAll_lost : (pushAll t quest_id q evs s).lost = s.lost :=
  pushAll_frame _ _ World.lost (fun _ _ => rfl) evs q s
@[simp] theorem pushAll_beating : (pushAll t quest_id q evs s).beating = s.beating :=
  pushAll_frame _ _ World.beating (fun _ _ => rfl) evs q s
@[simp] theorem pushAll_writing : (pushAll t quest_id q evs s).writing = s.writing :=
  pushAll_frame _ _ World.writing (fun _ _ => rfl) evs q s
@[simp] theorem pushAll_serving : (pushAll t quest_id q evs s).serving = s.serving :=
  pushAll_frame _ _ World.serving (fun _ _ => rfl) evs q s
@[simp] theorem pushAll_ready : (pushAll t quest_id q evs s).ready = s.ready :=
  pushAll_frame _ _ World.ready (fun _ _ => rfl) evs q s
@[simp] theorem pushAll_closed : (pushAll t quest_id q evs s).closed = s.closed :=
  pushAll_frame _ _ World.closed (fun _ _ => rfl) evs q s
@[simp] theorem pushAll_actions : (pushAll t quest_id q evs s).actions = s.actions :=
  pushAll_frame _ _ World.actions (fun _ _ => rfl) evs q s
@[simp] theorem pushAll_decisions : (pushAll t quest_id q evs s).decisions = s.decisions :=
  pushAll_frame _ _ World.decisions (fun _ _ => rfl) evs q s
@[simp] theorem pushAll_plans : (pushAll t quest_id q evs s).plans = s.plans :=
  pushAll_frame _ _ World.plans (fun _ _ => rfl) evs q s
@[simp] theorem pushAll_baselines : (pushAll t quest_id q evs s).baselines = s.baselines :=
  pushAll_frame _ _ World.baselines (fun _ _ => rfl) evs q s
@[simp] theorem pushAll_resource_leases :
    (pushAll t quest_id q evs s).resource_leases = s.resource_leases :=
  pushAll_frame _ _ World.resource_leases (fun _ _ => rfl) evs q s

/-- A thread whose lease is not lost does nothing late. -/
theorem pushAll_late_of_kept {s : World} (h : s.lost t = false) :
    (pushAll t quest_id q evs s).late = s.late := by
  induction evs generalizing q s with
  | nil => rfl
  | cons e rest ih =>
      simp only [pushAll]
      rw [ih _ (by exact h), push_late, h]
      rfl

end

/-- The newest row of a transaction is its last. -/
theorem rowsOn_head (q : Quest) {evs : List (EventType × Patch)} (h : evs ≠ []) :
    ∃ e rest, rowsOn q evs = e :: rest ∧ e.last = true := by
  induction evs generalizing q with
  | nil => exact absurd rfl h
  | cons ev rest ih =>
      obtain ⟨ty, p⟩ := ev
      cases rest with
      | nil => exact ⟨_, [], rfl, rfl⟩
      | cons ev' rest' =>
          obtain ⟨e, r, he, hl⟩ := ih (eventOn q false ty p).after (by simp)
          exact ⟨e, r ++ [eventOn q false ty p], by rw [rowsOn, List.isEmpty_cons, he]; rfl, hl⟩

theorem decisionEvents_ne_nil {q : Quest} {payload : DecisionCreate} {m : Option Modification}
    {now : String} (h : payload.kind = .modify → m.isSome) : decisionEvents q payload m now ≠ [] := by
  unfold decisionEvents
  split
  · simp
  · simp
  · rename_i hk
    exact absurd (h hk) (by simp)
  · simp

theorem reviewEvents_ne_nil (payload : ArtifactReview) (now : String) :
    reviewEvents payload now ≠ [] := by
  unfold reviewEvents
  split <;> simp

/-! ## The ledger -/

/-- What holds while a transaction is under way. -/
structure Chain (s : World) : Prop where
  /-- A quest's projection is the one its newest event leads to. -/
  quest_eq : ∀ id, s.quest id = (s.events id).head?.map (·.after)
  id_eq : ∀ id, ∀ e ∈ s.events id, e.after.id = id
  /-- Versions fall from the newest event on. -/
  falling : ∀ id, (s.events id).Pairwise fun a b => b.after.state_version < a.after.state_version
  sequence_eq : ∀ id, ∀ e ∈ s.events id, e.sequence = e.after.state_version
  own_mem : ∀ t e, s.own t = some e → e ∈ s.events e.after.id
  /-- Only a thread whose lease is lost does anything late. -/
  late_lost : ∀ t, s.late t ≠ [] → s.lost t = true
  /-- Requests are made to a service that has started. -/
  serving_ready : ∀ t id, s.serving t = some id → s.ready = true

/-- What holds between transactions. -/
structure Ledger (s : World) : Prop extends Chain s where
  /-- The newest event is the last of its transaction. -/
  last_eq : ∀ id e, (s.events id).head? = some e → e.last = true

/-- A projection that a transaction led to. -/
def Snap (s : World) (q : Quest) : Prop := ∃ e ∈ s.events q.id, e.last = true ∧ e.after = q

theorem Chain.head {s : World} (h : Chain s) {id : String} {q : Quest}
    (hq : s.quest id = some q) : ∃ e rest, s.events id = e :: rest ∧ e.after = q := by
  rw [h.quest_eq] at hq
  cases hev : s.events id with
  | nil => rw [hev] at hq; exact absurd hq (by simp)
  | cons e rest =>
      rw [hev] at hq
      exact ⟨e, rest, rfl, by simpa using hq⟩

theorem Chain.quest_id {s : World} (h : Chain s) {id : String} {q : Quest}
    (hq : s.quest id = some q) : q.id = id := by
  obtain ⟨e, rest, hev, rfl⟩ := h.head hq
  exact h.id_eq id e (by rw [hev]; exact List.mem_cons_self)

/-- No event led to a higher version than the current one. -/
theorem Chain.version_le {s : World} (h : Chain s) {id : String} {q : Quest}
    (hq : s.quest id = some q) {e : EventRow} (he : e ∈ s.events id) :
    e.after.state_version ≤ q.state_version := by
  obtain ⟨e₀, rest, hev, rfl⟩ := h.head hq
  have hp := h.falling id
  rw [hev] at he hp
  rcases List.mem_cons.mp he with rfl | he
  · exact Nat.le_refl _
  · exact Nat.le_of_lt ((List.pairwise_cons.mp hp).1 e he)

/-- An event is known by its quest and the version it leads to. -/
theorem Chain.event_unique {s : World} (h : Chain s) {id : String} {e e' : EventRow}
    (he : e ∈ s.events id) (he' : e' ∈ s.events id)
    (hv : e.after.state_version = e'.after.state_version) : e = e' := by
  have hp := h.falling id
  generalize s.events id = l at he he' hp
  induction hp with
  | nil => exact absurd he (by simp)
  | @cons a l hlt _ ih =>
      rcases List.mem_cons.mp he with rfl | h₁ <;> rcases List.mem_cons.mp he' with rfl | h₂
      · rfl
      · have := hlt _ h₂; omega
      · have := hlt _ h₁; omega
      · exact ih h₁ h₂

theorem Snap.unique {s : World} (h : Chain s) {q q' : Quest} (hq : Snap s q) (hq' : Snap s q')
    (hid : q.id = q'.id) (hv : q.state_version = q'.state_version) : q = q' := by
  obtain ⟨e, he, _, rfl⟩ := hq
  obtain ⟨e', he', _, rfl⟩ := hq'
  rw [← hid] at he'
  rw [h.event_unique he he' hv]

theorem Ledger.snap {s : World} (h : Ledger s) {id : String} {q : Quest}
    (hq : s.quest id = some q) : Snap s q := by
  obtain rfl := h.quest_id hq
  obtain ⟨e, rest, hev, rfl⟩ := h.head hq
  exact ⟨e, by rw [hev]; exact List.mem_cons_self, h.last_eq e.after.id e (by rw [hev]; rfl), rfl⟩

/-- **Compare-and-swap.** A projection of the current version is the current one. -/
theorem Ledger.current {s : World} (h : Ledger s) {q cur : Quest} (hq : Snap s q)
    (hcur : s.quest q.id = some cur) (hv : cur.state_version = q.state_version) : cur = q :=
  Snap.unique h.toChain (h.snap hcur) hq (h.quest_id hcur) hv

/-! ### Kept by every call -/

section
variable {s s' : World}

theorem Chain.congr (h : Chain s) (hq : s'.quest = s.quest) (he : s'.events = s.events)
    (ho : s'.own = s.own) (hl : s'.late = s.late) (hlost : ∀ t, s.lost t = true → s'.lost t = true)
    (hs : s'.serving = s.serving) (hr : s.ready = true → s'.ready = true) : Chain s' where
  quest_eq := by rw [hq, he]; exact h.quest_eq
  id_eq := by rw [he]; exact h.id_eq
  falling := by rw [he]; exact h.falling
  sequence_eq := by rw [he]; exact h.sequence_eq
  own_mem := by rw [ho, he]; exact h.own_mem
  late_lost t ht := hlost t (h.late_lost t (hl ▸ ht))
  serving_ready t id ht := hr (h.serving_ready t id (hs ▸ ht))

theorem Ledger.congr (h : Ledger s) (hq : s'.quest = s.quest) (he : s'.events = s.events)
    (ho : s'.own = s.own) (hl : s'.late = s.late) (hlost : ∀ t, s.lost t = true → s'.lost t = true)
    (hs : s'.serving = s.serving) (hr : s.ready = true → s'.ready = true) : Ledger s' :=
  ⟨h.toChain.congr hq he ho hl hlost hs hr, by rw [he]; exact h.last_eq⟩

/-- What a thread notes is late. -/
theorem Chain.note (h : Chain s) (t : Tid) (e : Effect) : Chain (s.note t e) where
  quest_eq := h.quest_eq
  id_eq := h.id_eq
  falling := h.falling
  sequence_eq := h.sequence_eq
  own_mem := h.own_mem
  late_lost u hu := by
    cases hlost : s.lost t with
    | false =>
        have : (s.note t e).late = s.late := by simp [World.note, hlost]
        exact h.late_lost u (this ▸ hu)
    | true =>
        by_cases hut : u = t
        · subst hut; exact hlost
        · have : (s.note t e).late u = s.late u := by
            simp [World.note, hlost, update_of_ne _ _ _ hut]
          exact h.late_lost u (this ▸ hu)
  serving_ready := h.serving_ready

/-- Writing an event that is newer than all of its quest. -/
theorem Chain.write (h : Chain s) (t : Tid) {id : String} {e : EventRow} (hid : e.after.id = id)
    (hnew : ∀ x ∈ s.events id, x.after.state_version < e.after.state_version)
    (hseq : e.sequence = e.after.state_version) : Chain (s.write t id e) where
  quest_eq x := by
    by_cases hx : x = id
    · subst hx; simp [World.write]
    · simp [World.write, update_of_ne _ _ _ hx, h.quest_eq]
  id_eq x e' he' := by
    by_cases hx : x = id
    · subst hx
      rcases List.mem_cons.mp (by simpa [World.write] using he') with rfl | he'
      · exact hid
      · exact h.id_eq x e' he'
    · exact h.id_eq x e' (by simpa [World.write, update_of_ne _ _ _ hx] using he')
  falling x := by
    by_cases hx : x = id
    · subst hx
      simp only [World.write, update_self]
      exact List.pairwise_cons.mpr ⟨hnew, h.falling x⟩
    · simpa [World.write, update_of_ne _ _ _ hx] using h.falling x
  sequence_eq x e' he' := by
    by_cases hx : x = id
    · subst hx
      rcases List.mem_cons.mp (by simpa [World.write] using he') with rfl | he'
      · exact hseq
      · exact h.sequence_eq x e' he'
    · exact h.sequence_eq x e' (by simpa [World.write, update_of_ne _ _ _ hx] using he')
  own_mem u e' hu := by
    have hor : e' = e ∨ s.own u = some e' := by
      simp only [World.write] at hu
      split at hu
      · exact Or.inr hu
      · by_cases hut : u = t
        · subst hut; rw [update_self] at hu; exact Or.inl (Option.some.inj hu).symm
        · rw [update_of_ne _ _ _ hut] at hu; exact Or.inr hu
    rcases hor with rfl | hown
    · subst hid; simp [World.write]
    · have := h.own_mem u e' hown
      by_cases hx : e'.after.id = id
      · rw [hx] at this ⊢
        simp only [World.write, update_self]
        exact List.mem_cons_of_mem _ this
      · simpa [World.write, update_of_ne _ _ _ hx] using this
  late_lost := h.late_lost
  serving_ready := h.serving_ready

/-- Writing an event on the current projection. -/
theorem Chain.push (h : Chain s) (t : Tid) {id : String} {q : Quest} (hq : s.quest id = some q)
    (last : Bool) (ty : EventType) (p : Patch) : Chain (s.push t id (eventOn q last ty p)) := by
  have hid : q.id = id := h.quest_id hq
  exact (h.write t hid (fun _ hx => Nat.lt_succ_of_le (h.version_le hq hx)) rfl).note t _

theorem Chain.pushAll (h : Chain s) (t : Tid) {id : String} {q : Quest} (hq : s.quest id = some q)
    (evs : List (EventType × Patch)) : Chain (pushAll t id q evs s) := by
  induction evs generalizing q s with
  | nil => exact h
  | cons e rest ih => exact ih (h.push t hq _ _ _) (by simp)

theorem Ledger.push (h : Ledger s) (t : Tid) {id : String} {q : Quest} (hq : s.quest id = some q)
    (ty : EventType) (p : Patch) : Ledger (s.push t id (eventOn q true ty p)) := by
  refine ⟨h.toChain.push t hq _ _ _, fun x e he => ?_⟩
  by_cases hx : x = id
  · subst hx
    rw [push_events, update_self] at he
    rw [← Option.some.inj he]
    rfl
  · rw [push_events, update_of_ne _ _ _ hx] at he
    exact h.last_eq x e he

theorem Ledger.pushAll (h : Ledger s) (t : Tid) {id : String} {q : Quest}
    (hq : s.quest id = some q) {evs : List (EventType × Patch)} (hne : evs ≠ []) :
    Ledger (pushAll t id q evs s) := by
  refine ⟨h.toChain.pushAll t hq evs, fun x e he => ?_⟩
  by_cases hx : x = id
  · subst hx
    obtain ⟨e₀, rest, hrows, hl⟩ := rowsOn_head q hne
    rw [pushAll_events, update_self, hrows] at he
    rw [← Option.some.inj he]
    exact hl
  · rw [pushAll_events, update_of_ne _ _ _ hx] at he
    exact h.last_eq x e he

end

/-- Before a quest has events there is none of its id. -/
theorem Chain.no_events {s : World} (h : Chain s) {id : String} (hq : s.quest id = none) :
    s.events id = [] := by
  rw [h.quest_eq] at hq
  exact List.head?_eq_none_iff.mp (by simpa using hq)

section
variable {C : Config} {t : Tid} {i : Input} {s s' : World} {c : Call} {r : Except Exn c.Reply}

/-- **Every call keeps the ledger.** -/
theorem ledger_outcome (h : Ledger s) (ho : Outcome C t i s c r s') : Ledger s' := by
  cases ho with
  | append_event hcur _ => exact h.push t hcur _ _
  | @create_draft quest_id _ _ _ _ _ _ hnone _ =>
      have hev := h.no_events hnone
      refine ⟨Chain.write ?_ t ?_ ?_ ?_, fun x e he => ?_⟩
      · exact h.toChain.congr rfl rfl rfl rfl (fun _ h => h) rfl id
      · rfl
      · exact fun x hx => absurd (hev ▸ hx) (by simp)
      · rfl
      · by_cases hx : x = quest_id
        · subst hx
          simp only [World.write, update_self, List.head?_cons, Option.some.injEq] at he
          exact he ▸ rfl
        · simp only [World.write, update_of_ne _ _ _ hx] at he
          exact h.last_eq x e he
  | store_contract_version hcur _ =>
      exact Ledger.push (s := s.addContract _ _)
        (h.congr rfl rfl rfl rfl (fun _ h => h) rfl id) t hcur _ _
  | store_plan_version hcur _ _ _ _ =>
      exact Ledger.push (s := s.addPlan _ _ _)
        (h.congr rfl rfl rfl rfl (fun _ h => h) rfl id) t hcur _ _
  | @apply_decision q cur _ payload m hcur _ _ hk _ =>
      exact Ledger.pushAll (s := s.addDecision q.id (decisionRow q payload i))
        (h.congr rfl rfl rfl rfl (fun _ h => h) rfl id) t hcur
        (decisionEvents_ne_nil fun hm => absurd hm hk)
  | @modify q cur _ payload m _ ms hcur _ _ _ _ _ _ =>
      exact Ledger.pushAll
        (s := ((s.addDecision q.id (decisionRow q payload i)).addContract q.id m.contract).addPlan
          q.id m.plan ms)
        (h.congr rfl rfl rfl rfl (fun _ h => h) rfl id) t hcur
        (decisionEvents_ne_nil fun _ => rfl)
  | @admitted q cur hcur _ _ =>
      exact Ledger.push
        (s := { s with leases := update s.leases q.id (some ⟨t, i.clock + C.lease_seconds⟩) })
        (h.congr rfl rfl rfl rfl (fun _ h => h) rfl id) t hcur _ _
  | stop_heartbeat =>
      refine h.congr rfl rfl rfl rfl (fun u hu => ?_) rfl id
      by_cases hut : u = t
      · subst hut; simp [hu]
      · exact (update_of_ne _ _ _ hut).trans hu
  | committed _ _ hcur =>
      exact (h.push t hcur _ _).congr rfl rfl rfl rfl (fun _ h => h) rfl id
  | @invoke c =>
      refine ⟨Chain.note ?_ t _, h.last_eq⟩
      exact h.toChain.congr rfl rfl rfl rfl (fun _ h => h) rfl id
  | @begin_artifact_review q cur payload hcur _ _ =>
      exact Ledger.pushAll (s := { s with reviews := update s.reviews q.id (some payload.row) })
        (h.congr rfl rfl rfl rfl (fun _ h => h) rfl id) t hcur (reviewEvents_ne_nil _ _)
  | finalize_artifact_discard hcur _ =>
      exact (h.push t hcur _ _).congr rfl rfl rfl rfl (fun _ h => h) rfl id
  | request_artifact_review hcur _ => exact h.push t hcur _ _
  | started => exact h.congr rfl rfl rfl rfl (fun _ h => h) rfl fun _ => rfl
  | failed | read | admit_refused | acquire_kept | release_kept | prepare_found | dispatch_kept
  | fail_kept | unknown_kept | commit_kept | verify | verify_read_only_tool | review_found
  | discard_kept => exact h
  | start_heartbeat | release_lease | save_baseline | save_checkpoint | record | acquired | released
  | prepared | dispatched | fail_action | mark_action_unknown | finish
  | clear_runtime_leases_on_startup | mark_dispatched_actions_unknown =>
      exact h.congr rfl rfl rfl rfl (fun _ h => h) rfl id

end

/-! ## What only grows -/

/-- The part of an action's row that is fixed when the row is made. -/
def ActionRow.frame (r : ActionRow) : ActionRow :=
  { r with status := .prepared, result := none, error := none, committed_event := none }

/-- What only grows. -/
structure Later (s s' : World) : Prop where
  events : ∀ id, s.events id <:+ s'.events id
  decisions : ∀ id, s.decisions id <:+ s'.decisions id
  /-- Every decision comes with an event. -/
  decided : ∀ id, s'.events id = s.events id → s'.decisions id = s.decisions id
  actions : ∀ r ∈ s.actions, ∃ r' ∈ s'.actions, r'.frame = r.frame
  baselines : ∀ id, (s.baselines id).isSome → (s'.baselines id).isSome

theorem Later.refl (s : World) : Later s s :=
  ⟨fun _ => List.suffix_refl _, fun _ => List.suffix_refl _, fun _ _ => rfl,
    fun r hr => ⟨r, hr, rfl⟩, fun _ h => h⟩

theorem Later.trans {a b c : World} (h : Later a b) (h' : Later b c) : Later a c where
  events id := (h.events id).trans (h'.events id)
  decisions id := (h.decisions id).trans (h'.decisions id)
  decided id heq := by
    have hb : b.events id = a.events id := by
      have h1 := (h'.events id).length_le
      rw [heq] at h1
      exact ((h.events id).eq_of_length (Nat.le_antisymm (h.events id).length_le h1)).symm
    rw [h'.decided id (heq.trans hb.symm), h.decided id hb]
  actions r hr := by
    obtain ⟨r₁, hr₁, he₁⟩ := h.actions r hr
    obtain ⟨r₂, hr₂, he₂⟩ := h'.actions r₁ hr₁
    exact ⟨r₂, hr₂, he₂.trans he₁⟩
  baselines id ha := h'.baselines id (h.baselines id ha)

theorem Later.mem_events {s s' : World} (h : Later s s') {id : String} {e : EventRow}
    (he : e ∈ s.events id) : e ∈ s'.events id := (h.events id).subset he

theorem Later.snap {s s' : World} (h : Later s s') {q : Quest} (hq : Snap s q) : Snap s' q := by
  obtain ⟨e, he, hl, ha⟩ := hq
  exact ⟨e, h.mem_events he, hl, ha⟩

/-! ## What nobody does in another's name -/

/-- What others leave alone of thread `u`. -/
structure Aside (u : Tid) (s s' : World) : Prop where
  own : s'.own u = s.own u
  late : s'.late u = s.late u
  writing : s'.writing u = s.writing u
  serving : s'.serving u = s.serving u
  beating : s.beating u = none → s'.beating u = none
  /-- Without a heartbeat a lease is not found lost. -/
  lost : s.beating u = none → s'.lost u = s.lost u
  /-- Others give a thread no resource. -/
  given : ∀ k l, s'.resource_leases k = some l → l.owner = u → s.resource_leases k = some l

theorem Aside.refl (u : Tid) (s : World) : Aside u s s :=
  ⟨rfl, rfl, rfl, rfl, fun h => h, fun _ => rfl, fun _ _ h _ => h⟩

theorem Aside.trans {u : Tid} {a b c : World} (h : Aside u a b) (h' : Aside u b c) :
    Aside u a c where
  own := h'.own.trans h.own
  late := h'.late.trans h.late
  writing := h'.writing.trans h.writing
  serving := h'.serving.trans h.serving
  beating hb := h'.beating (h.beating hb)
  lost hb := (h'.lost (h.beating hb)).trans (h.lost hb)
  given k l hl ho := h.given k l (h'.given k l hl ho) ho

/-- What others let a thread keep: the resources it holds. -/
def Left (u : Tid) (s s' : World) : Prop :=
  s.ready = true → s'.ready = true
    ∧ ∀ k l, s.resource_leases k = some l → l.owner = u → s'.resource_leases k = some l

theorem Left.refl (u : Tid) (s : World) : Left u s s := fun h => ⟨h, fun _ _ h _ => h⟩

theorem Left.trans {u : Tid} {a b c : World} (h : Left u a b) (h' : Left u b c) : Left u a c := by
  intro ha
  obtain ⟨hb, h1⟩ := h ha
  obtain ⟨hc, h2⟩ := h' hb
  exact ⟨hc, fun k l hl ho => h2 k l (h1 k l hl ho) ho⟩

/-! ## Calls, and what happens without one -/

/-- One more entry at the front of one list. -/
theorem suffix_update {α : Type} (f : String → List α) (id : String) (xs : List α) (x : String) :
    f x <:+ update f id (xs ++ f id) x := by
  by_cases h : x = id
  · subst h
    have hself := update_self f x (xs ++ f x)
    exact hself.symm ▸ List.suffix_append xs (f x)
  · have hother := update_of_ne f id (xs ++ f id) h
    exact hother.symm ▸ List.suffix_refl (f x)

section
variable {s s' : World}

theorem Later.congr (he : s'.events = s.events) (hd : s'.decisions = s.decisions)
    (ha : ∀ r ∈ s.actions, ∃ r' ∈ s'.actions, r'.frame = r.frame)
    (hb : ∀ id, (s.baselines id).isSome → (s'.baselines id).isSome) : Later s s' where
  events id := he ▸ List.suffix_refl _
  decisions id := hd ▸ List.suffix_refl _
  decided id _ := by rw [hd]
  actions := ha
  baselines := hb

/-- What only adds events. -/
theorem Later.of_events (id : String) (rows : List EventRow)
    (he : s'.events = update s.events id (rows ++ s.events id)) (hd : s'.decisions = s.decisions)
    (ha : ∀ r ∈ s.actions, ∃ r' ∈ s'.actions, r'.frame = r.frame)
    (hb : s'.baselines = s.baselines) : Later s s' where
  events x := by rw [he]; exact suffix_update _ _ _ _
  decisions x := hd ▸ List.suffix_refl _
  decided x _ := by rw [hd]
  actions := ha
  baselines x h := by rw [hb]; exact h

/-- What adds a decision with its events. -/
theorem Later.of_decision (id : String) {rows : List EventRow} (hne : rows ≠ []) (d : DecisionRow)
    (he : s'.events = update s.events id (rows ++ s.events id))
    (hd : s'.decisions = update s.decisions id (d :: s.decisions id))
    (ha : s'.actions = s.actions) (hb : s'.baselines = s.baselines) : Later s s' where
  events x := by rw [he]; exact suffix_update _ _ _ _
  decisions x := by rw [hd]; exact suffix_update s.decisions id [d] x
  decided x hx := by
    by_cases h : x = id
    · subst h
      rw [he, update_self] at hx
      have := congrArg List.length hx
      rw [List.length_append] at this
      exact absurd (List.eq_nil_of_length_eq_zero (by omega)) hne
    · rw [hd, update_of_ne _ _ _ h]
  actions r hr := ⟨r, ha ▸ hr, rfl⟩
  baselines x h := by rw [hb]; exact h

theorem frame_self {r : ActionRow} (h : r ∈ s.actions) :
    ∃ r' ∈ s.actions, r'.frame = r.frame := ⟨r, h, rfl⟩

/-- Changing an action's status keeps every row's frame. -/
theorem frame_update_action {action_id : String} {row new : ActionRow}
    (hrow : s.action action_id = some row) (hframe : new.frame = row.frame) (hnodup : (s.actions.map (·.action_id)).Nodup)
    {r : ActionRow} (hr : r ∈ s.actions) :
    ∃ r' ∈ (s.update_action new).actions, r'.frame = r.frame := by
  have hmem : row ∈ s.actions := List.mem_of_find?_eq_some hrow
  have hid : row.action_id = new.action_id := (congrArg ActionRow.action_id hframe).symm
  by_cases h : r.action_id = new.action_id
  · obtain rfl : r = row := List.inj_on_of_nodup_map hnodup hr hmem (h.trans hid.symm)
    exact ⟨new, List.mem_map.mpr ⟨r, hr, if_pos h⟩, hframe⟩
  · exact ⟨r, List.mem_map.mpr ⟨r, hr, if_neg h⟩, rfl⟩

end

section
variable {C : Config} {t : Tid} {i : Input} {s s' : World} {c : Call} {r : Except Exn c.Reply}

/-- **Every call only adds.** -/
theorem later_outcome (hn : (s.actions.map (·.action_id)).Nodup) (ho : Outcome C t i s c r s') :
    Later s s' := by
  cases ho with
  | append_event | request_artifact_review =>
      exact .of_events _ [_] rfl rfl (fun _ => frame_self) rfl
  | create_draft => exact .of_events _ [_] rfl rfl (fun _ => frame_self) rfl
  | store_contract_version | store_plan_version | admitted | finalize_artifact_discard =>
      exact .of_events _ [_] rfl rfl (fun _ => frame_self) rfl
  | @apply_decision q cur _ payload m _ _ _ hk _ =>
      refine .of_decision q.id ?_ (decisionRow q payload i) (pushAll_events _ _ _ _ _)
        (pushAll_decisions _ _ _ _ _) (pushAll_actions _ _ _ _ _) (pushAll_baselines _ _ _ _ _)
      have hne : decisionEvents q payload m i.now ≠ [] :=
        decisionEvents_ne_nil fun hm => absurd hm hk
      obtain ⟨e, rest, he, _⟩ := rowsOn_head cur hne
      rw [he]; simp
  | @modify q cur _ payload m =>
      refine .of_decision q.id ?_ (decisionRow q payload i) (pushAll_events _ _ _ _ _)
        (pushAll_decisions _ _ _ _ _) (pushAll_actions _ _ _ _ _) (pushAll_baselines _ _ _ _ _)
      have hne : decisionEvents q payload (some m) i.now ≠ [] := decisionEvents_ne_nil fun _ => rfl
      obtain ⟨e, rest, he, _⟩ := rowsOn_head cur hne
      rw [he]; simp
  | @begin_artifact_review q cur payload =>
      exact .of_events q.id _ (pushAll_events _ _ _ _ _) (pushAll_decisions _ _ _ _ _)
        (fun r hr => ⟨r, by rw [pushAll_actions]; exact hr, rfl⟩) (pushAll_baselines _ _ _ _ _)
  | @save_baseline _ q =>
      refine .congr rfl rfl (fun _ => frame_self) fun x hx => ?_
      by_cases h : x = q.id
      · simp [update, h]
      · exact (congrArg Option.isSome (update_of_ne _ _ _ h)).trans hx
  | prepared => exact .congr rfl rfl (fun r hr => ⟨r, List.mem_append_left _ hr, rfl⟩) fun _ h => h
  | fail_action hrow | mark_action_unknown hrow =>
      exact .congr rfl rfl (fun r hr => frame_update_action hrow (by rfl) hn hr)
        fun _ h => h
  | dispatched hrow _ hst herr =>
      subst hst herr
      exact .congr rfl rfl (fun r hr => frame_update_action hrow (by rfl) hn hr) fun _ h => h
  | committed hrow =>
      exact .of_events _ [_] rfl rfl
        (fun r hr => frame_update_action (s := s) hrow (by rfl) hn hr) rfl
  | mark_dispatched_actions_unknown =>
      refine .congr rfl rfl (fun r hr => ⟨_, List.mem_map.mpr ⟨r, hr, rfl⟩, ?_⟩) fun _ h => h
      split <;> rfl
  | failed | read | admit_refused | acquire_kept | release_kept | prepare_found | dispatch_kept
  | fail_kept | unknown_kept | commit_kept | verify | verify_read_only_tool | review_found
  | discard_kept => exact .refl s
  | start_heartbeat | stop_heartbeat | release_lease | save_checkpoint | record | acquired
  | released | invoke | finish | clear_runtime_leases_on_startup | started =>
      exact .congr rfl rfl (fun _ => frame_self) fun _ h => h

theorem Aside.congr {u : Tid} (ho : s'.own u = s.own u) (hl : s'.late u = s.late u)
    (hw : s'.writing u = s.writing u) (hs : s'.serving u = s.serving u)
    (hb : s'.beating u = s.beating u) (hlost : s'.lost u = s.lost u)
    (hr : s'.resource_leases = s.resource_leases) : Aside u s s' :=
  ⟨ho, hl, hw, hs, fun h => hb.trans h, fun _ => hlost, fun _ _ h _ => hr ▸ h⟩

theorem Aside.push {u : Tid} (hu : u ≠ t) {s s' : World} (h : Aside u s s') (id : String)
    (e : EventRow) : Aside u s (s'.push t id e) := by
  refine h.trans (.congr ?_ ?_ rfl rfl rfl rfl rfl)
  · rw [push_own]
    split
    · rfl
    · exact update_of_ne _ _ _ hu
  · rw [push_late]
    split
    · exact update_of_ne _ _ _ hu
    · rfl

theorem Aside.pushAll {u : Tid} (hu : u ≠ t) {s s' : World} (h : Aside u s s') (id : String)
    (q : Quest) (evs : List (EventType × Patch)) : Aside u s (pushAll t id q evs s') := by
  induction evs generalizing q s' with
  | nil => exact h
  | cons e rest ih => exact ih (h.push hu id _) _

/-- **No call is made in another's name.** -/
theorem aside_outcome {u : Tid} (hu : u ≠ t) (ho : Outcome C t i s c r s') : Aside u s s' := by
  cases ho with
  | append_event | request_artifact_review => exact .push hu (.refl u s) _ _
  | create_draft =>
      exact .congr (update_of_ne _ _ _ hu) rfl rfl rfl rfl rfl rfl
  | store_contract_version | store_plan_version | admitted =>
      refine .push hu ?_ _ _
      exact .congr rfl rfl rfl rfl rfl rfl rfl
  | apply_decision | modify | begin_artifact_review =>
      refine .pushAll hu ?_ _ _ _
      exact .congr rfl rfl rfl rfl rfl rfl rfl
  | start_heartbeat =>
      exact .congr rfl rfl rfl rfl (update_of_ne _ _ _ hu) rfl rfl
  | stop_heartbeat =>
      exact .congr rfl rfl rfl rfl (update_of_ne _ _ _ hu) (update_of_ne _ _ _ hu) rfl
  | @acquired key quest_id =>
      refine ⟨rfl, rfl, rfl, rfl, fun h => h, fun _ => rfl, fun k l hl ho => ?_⟩
      change update s.resource_leases key _ k = some l at hl
      by_cases hk : k = key
      · subst hk
        rw [update_self] at hl
        obtain rfl := Option.some.inj hl
        exact absurd ho.symm hu
      · rwa [update_of_ne _ _ _ hk] at hl
  | @released key =>
      refine ⟨rfl, rfl, rfl, rfl, fun h => h, fun _ => rfl, fun k l hl ho => ?_⟩
      change update s.resource_leases key _ k = some l at hl
      by_cases hk : k = key
      · subst hk
        rw [update_self] at hl
        exact absurd hl (by simp)
      · rwa [update_of_ne _ _ _ hk] at hl
  | committed => exact Aside.trans (.push hu (.refl u s) _ _) (.congr rfl rfl rfl rfl rfl rfl rfl)
  | invoke =>
      refine .congr rfl ?_ ?_ rfl rfl rfl rfl
      · simp only [World.note]
        split
        · exact update_of_ne _ _ _ hu
        · rfl
      · simp only [World.note]
        split
        · exact update_of_ne _ _ _ hu
        · rfl
  | finish =>
      refine .congr rfl rfl ?_ rfl rfl rfl rfl
      dsimp only
      split
      · exact update_of_ne _ _ _ hu
      · rfl
  | finalize_artifact_discard =>
      exact Aside.trans (.push hu (.refl u s) _ _) (.congr rfl rfl rfl rfl rfl rfl rfl)
  | clear_runtime_leases_on_startup =>
      exact ⟨rfl, rfl, rfl, rfl, fun h => h, fun _ => rfl, fun _ _ h _ => absurd h (by simp)⟩
  | failed | read | admit_refused | acquire_kept | release_kept | prepare_found | dispatch_kept
  | fail_kept | unknown_kept | commit_kept | verify | verify_read_only_tool | review_found
  | discard_kept => exact .refl u s
  | release_lease | save_baseline | save_checkpoint | record | prepared | dispatched | fail_action
  | mark_action_unknown | mark_dispatched_actions_unknown | started =>
      exact .congr rfl rfl rfl rfl rfl rfl rfl

/-- A call leaves others their resources, when it takes none that has run out. -/
theorem left_outcome {u : Tid} (hu : u ≠ t)
    (hfirm : ∀ key quest_id, c = .acquire_resource_lease key quest_id →
      ∀ l, s.resource_leases key = some l → i.clock < l.expires_at)
    (hclear : c = .clear_runtime_leases_on_startup → s.ready = false)
    (ho : Outcome C t i s c r s') : Left u s s' := by
  have keep : s.ready = s'.ready → s'.resource_leases = s.resource_leases → Left u s s' :=
    fun hr hl h => ⟨hr ▸ h, fun k l hk _ => hl ▸ hk⟩
  cases ho with
  | @acquired key quest_id hnone =>
      refine fun h => ⟨h, fun k l hl ho => ?_⟩
      by_cases hk : k = key
      · subst hk
        exact absurd (hfirm k quest_id rfl l hl) (hnone l hl)
      · exact (update_of_ne _ _ _ hk).trans hl
  | @released key quest_id lease hlease _ hown =>
      refine fun h => ⟨h, fun k l hl ho => ?_⟩
      by_cases hk : k = key
      · subst hk
        obtain rfl := Option.some.inj (hlease.symm.trans hl)
        exact absurd (ho.symm.trans hown) hu
      · exact (update_of_ne _ _ _ hk).trans hl
  | clear_runtime_leases_on_startup =>
      exact fun h => absurd (hclear rfl) (by simp [h])
  | started => exact fun _ => ⟨rfl, fun _ _ h _ => h⟩
  | apply_decision | modify | begin_artifact_review =>
      exact keep (by simp [World.addDecision, World.addContract, World.addPlan])
        (by simp [World.addDecision, World.addContract, World.addPlan])
  | _ => exact keep rfl rfl

end

/-! ### Heartbeats, crashes and new requests -/

section
variable {C : Config} {s : World}

/-- What a heartbeat can change. -/
theorem beat_cases (C : Config) (t : Tid) (i : Input) (s : World) :
    s.beating t = none ∧ beat C t i s = s
      ∨ (∃ leases, beat C t i s = { s with leases := leases })
      ∨ s.beating t ≠ none
        ∧ beat C t i s
          = { s with lost := update s.lost t true, beating := update s.beating t none } := by
  unfold beat
  cases hb : s.beating t with
  | none => exact Or.inl ⟨rfl, rfl⟩
  | some quest_id =>
      refine Or.inr ?_
      dsimp only
      unfold Storage.renew_lease
      by_cases hbr : i.broken.isSome
      · simp [hbr]
      · simp only [hbr, Bool.false_eq_true, if_false]
        cases hl : s.live_lease quest_id i.clock with
        | none => simp
        | some l =>
            by_cases ho : l.owner = t
            · left; simp [ho]
            · right; simp [ho]

theorem later_env (v : Event) (s : World) : Later s ((system C).env v s) := by
  cases v with
  | close => exact .congr rfl rfl (fun _ => frame_self) fun _ h => h
  | beat t i =>
      show Later s (beat C t i s)
      obtain ⟨_, h⟩ | ⟨l, h⟩ | ⟨_, h⟩ := beat_cases C t i s <;> rw [h]
      · exact .refl s
      · exact .congr rfl rfl (fun _ => frame_self) fun _ h => h
      · exact .congr rfl rfl (fun _ => frame_self) fun _ h => h

theorem aside_env (u : Tid) (v : Event) (s : World) : Aside u s ((system C).env v s) := by
  cases v with
  | close => exact .congr rfl rfl rfl rfl rfl rfl rfl
  | beat t i =>
      show Aside u s (beat C t i s)
      obtain ⟨_, h⟩ | ⟨l, h⟩ | ⟨hb, h⟩ := beat_cases C t i s <;> rw [h]
      · exact .refl u s
      · exact .congr rfl rfl rfl rfl rfl rfl rfl
      · refine ⟨rfl, rfl, rfl, rfl, fun hu => ?_, fun hu => ?_, fun _ _ h _ => h⟩
        · by_cases hut : u = t
          · subst hut; exact absurd hu hb
          · exact (update_of_ne _ _ _ hut).trans hu
        · by_cases hut : u = t
          · subst hut; exact absurd hu hb
          · exact update_of_ne _ _ _ hut

theorem left_env (u : Tid) (v : Event) (s : World) : Left u s ((system C).env v s) := by
  cases v with
  | close => exact fun h => ⟨h, fun _ _ h _ => h⟩
  | beat t i =>
      show Left u s (beat C t i s)
      obtain ⟨_, h⟩ | ⟨l, h⟩ | ⟨_, h⟩ := beat_cases C t i s <;> rw [h] <;>
        exact fun h => ⟨h, fun _ _ h _ => h⟩

theorem ledger_env (h : Ledger s) (v : Event) : Ledger ((system C).env v s) := by
  cases v with
  | close => exact h.congr rfl rfl rfl rfl (fun _ h => h) rfl id
  | beat t i =>
      show Ledger (beat C t i s)
      obtain ⟨_, hs⟩ | ⟨l, hs⟩ | ⟨_, hs⟩ := beat_cases C t i s <;> rw [hs]
      · exact h
      · exact h.congr rfl rfl rfl rfl (fun _ h => h) rfl id
      · refine h.congr rfl rfl rfl rfl (fun u hu => ?_) rfl id
        by_cases hut : u = t
        · subst hut; exact update_self _ _ _
        · exact (update_of_ne _ _ _ hut).trans hu

theorem ledger_crash (h : Ledger s) : Ledger (crash s) where
  quest_eq := h.quest_eq
  id_eq := h.id_eq
  falling := h.falling
  sequence_eq := h.sequence_eq
  own_mem _ _ ht := absurd ht (by simp [crash])
  late_lost _ ht := absurd rfl ht
  serving_ready _ _ ht := absurd ht (by simp [crash])
  last_eq := h.last_eq

theorem ledger_arrive (h : Ledger s) (hready : s.ready = true) (t : Tid) (r : Request) :
    Ledger ((system C).arrive t r s) where
  quest_eq := h.quest_eq
  id_eq := h.id_eq
  falling := h.falling
  sequence_eq := h.sequence_eq
  own_mem := h.own_mem
  late_lost := h.late_lost
  serving_ready _ _ _ := hready
  last_eq := h.last_eq

end

end ProjectTown.Service
