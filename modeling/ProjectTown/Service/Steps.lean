import ProjectTown.Service.Guarantees

/-!
# Walking through a thread

`Goes` says that a thread makes permitted calls only, from a state on, and how it
ends. The rules below follow the code: one for a look, one for a call, one for a
sequence. Each hands on the state after it with what has only grown since, so what
was known before is known after.
-/

namespace ProjectTown.Service

open Json (Value Fields)
open Interleave (Tid Prog Spec Safe)

/-! ## Between two calls -/

/-- What the others do between two calls of a thread. -/
structure Onward (firm : Prop) (t : Tid) (s s' : World) : Prop extends Grown s s' where
  aside : Aside t s s'
  ready : s'.ready = s.ready
  left : firm → Left t s s'

section
variable {firm : Prop} {t : Tid}

theorem Onward.refl (s : World) : Onward firm t s s :=
  ⟨.refl s, .refl t s, rfl, fun _ => .refl t s⟩

theorem Onward.trans {a b c : World} (h : Onward firm t a b) (h' : Onward firm t b c) :
    Onward firm t a c :=
  ⟨h.toGrown.trans h'.toGrown, h.aside.trans h'.aside, h'.ready.trans h.ready,
    fun hf => (h.left hf).trans (h'.left hf)⟩

end

section
variable (C : Config) (firm : Prop) (t : Tid)

/-- What a thread relies on and guarantees. -/
def spec : Spec World Input Call where
  step t c i s := (c.run C t i s).2
  inv := Sane
  rely := Onward firm t
  guar c _ s := Permitted C firm t c s
  cond c i s := firm → Firm c i s
  rely_refl := .refl
  rely_trans := .trans

end

/-! ## How a thread stands -/

/-- A thread starts the service, serves a request, or works on a quest. -/
inductive Phase where
  | boot | request | work
  deriving DecidableEq

/-- A thread of a phase, with no tool call of its own under way. -/
structure Standing (p : Phase) (t : Tid) (s : World) : Prop where
  idle : s.writing t = none
  calm : p ≠ .work → Calm t s
  up : p ≠ .boot → s.ready = true

section
variable {firm : Prop} {p : Phase} {t : Tid} {s s' : World}

theorem Standing.onward (h : Standing p t s) (ho : Onward firm t s s') : Standing p t s' where
  idle := ho.aside.writing.trans h.idle
  calm hp := ⟨ho.aside.beating (h.calm hp).1, (ho.aside.lost (h.calm hp).1).trans (h.calm hp).2⟩
  up hp := ho.ready.trans (h.up hp)

/-- A request that goes on as a worker. -/
theorem Standing.work (h : Standing .request t s) : Standing .work t s :=
  ⟨h.idle, fun hp => absurd rfl hp, fun _ => h.up (by simp)⟩

end

/-- The calls that change neither a heartbeat nor a tool call. -/
def Call.plain : Call → Bool
  | .start_heartbeat _ | .stop_heartbeat | .invoke _ | .finish _ => false
  | _ => true

/-- The calls that are noted when they are made late. -/
def Call.noted : Call → Bool
  | .append_event .. | .store_contract_version .. | .store_plan_version .. | .apply_decision ..
  | .admit_execution _ | .commit_action_with_event .. | .invoke _ | .begin_artifact_review ..
  | .finalize_artifact_discard _ | .request_artifact_review .. => true
  | _ => false

/-- The calls that give or take a resource. -/
def Call.leasing : Call → Bool
  | .acquire_resource_lease .. | .release_resource_lease ..
  | .clear_runtime_leases_on_startup => true
  | _ => false

section
variable {C : Config} {p : Phase} {t : Tid} {i : Input} {s s' : World} {c : Call}
  {r : Except Exn c.Reply}

theorem Standing.outcome (h : Standing p t s) (hc : c.plain = true) (ho : Outcome C t i s c r s') :
    Standing p t s' := by
  have keep : s'.writing = s.writing → s'.beating = s.beating → s'.lost = s.lost →
      (s.ready = true → s'.ready = true) → Standing p t s' := fun hw hb hl hr =>
    ⟨(congrFun hw t).trans h.idle, fun hp => ⟨(congrFun hb t).trans (h.calm hp).1,
      (congrFun hl t).trans (h.calm hp).2⟩, fun hp => hr (h.up hp)⟩
  cases ho with
  | start_heartbeat | stop_heartbeat | invoke | finish => exact absurd hc (by simp [Call.plain])
  | apply_decision | modify | begin_artifact_review =>
      exact keep (pushAll_writing ..) (pushAll_beating ..) (pushAll_lost ..)
        fun hr => (pushAll_ready ..).trans hr
  | started => exact keep rfl rfl rfl fun _ => rfl
  | _ => exact keep rfl rfl rfl id

theorem late_outcome (hc : c.noted = false) (ho : Outcome C t i s c r s') : s'.late = s.late := by
  cases ho with
  | append_event | store_contract_version | store_plan_version | apply_decision | modify
  | admit_refused | admitted | commit_kept | committed | invoke | review_found
  | begin_artifact_review | discard_kept | finalize_artifact_discard | request_artifact_review =>
      exact absurd hc (by simp [Call.noted])
  | _ => rfl

theorem leases_outcome (hc : c.leasing = false) (ho : Outcome C t i s c r s') :
    s'.resource_leases = s.resource_leases := by
  cases ho with
  | apply_decision | modify | begin_artifact_review => exact pushAll_resource_leases ..
  | acquire_kept | acquired | released | release_kept | clear_runtime_leases_on_startup =>
      exact absurd hc (by simp [Call.leasing])
  | _ => rfl

/-- What a call leaves alone, by what it is. -/
structure Kept (c : Call) (t : Tid) (s s' : World) : Prop where
  late : c.noted = false → s'.late t = s.late t
  leases : c.leasing = false → s'.resource_leases = s.resource_leases

theorem kept_outcome (ho : Outcome C t i s c r s') : Kept c t s s' :=
  ⟨fun hc => congrFun (late_outcome hc ho) t, fun hc => leases_outcome hc ho⟩

/-- The others leave a thread what it holds. -/
theorem Holds.onward {firm : Prop} {call : ToolCall} (h : Holds t s call) (hf : firm)
    (hready : s.ready = true) (ho : Onward firm t s s') : Holds t s' call := by
  intro w hw
  obtain ⟨l, hl, hown⟩ := h w hw
  exact ⟨l, (ho.left hf hready).2 _ l hl hown, hown⟩

theorem Holds.congr {call : ToolCall} (h : Holds t s call)
    (hl : s'.resource_leases = s.resource_leases) : Holds t s' call := by
  intro w hw
  rw [hl]
  exact h w hw

end

/-! ## Going on -/

/-- From `s` on, thread `t` makes permitted calls only, and stands as before when it ends. -/
def Goes {α : Type} (C : Config) (firm : Prop) (p : Phase) (t : Tid) (Q : α → World → Prop)
    (m : Thread α) (s : World) : Prop :=
  Safe (spec C firm t) t (fun a s' => Standing p t s' ∧ Q a s') (fun _ s' => Standing p t s') m s

section
variable {C : Config} {firm : Prop} {p : Phase} {t : Tid} {s : World} {α β : Type}
  {Q : α → World → Prop} {R : β → World → Prop}

theorem Goes.onward {m : Thread α} {s' : World} (h : Goes C firm p t Q m s)
    (ho : Onward firm t s s') : Goes C firm p t Q m s' := Safe.rely h ho

theorem Goes.mono {Q' : α → World → Prop} {m : Thread α} (h : Goes C firm p t Q m s)
    (hq : ∀ a s', Sane s' → Q a s' → Q' a s') : Goes C firm p t Q' m s :=
  Safe.mono (fun a s' hi hs => ⟨hs.1, hq a s' hi hs.2⟩) (fun _ _ _ hx => hx) h

theorem Goes.ret {a : α} (hs : Standing p t s)
    (hq : ∀ s', Onward firm t s s' → Sane s' → Q a s') : Goes C firm p t Q (.ret a) s :=
  fun s' hr hi => ⟨hs.onward hr, hq s' hr hi⟩

theorem Goes.raise {e : Exn} (hs : Standing p t s) :
    Goes C firm p t Q (.raise e) s := fun _ hr _ => hs.onward hr

/-- A thread only adds to what only grows. -/
theorem Goes.grown {m : Thread α} (h : Goes C firm p t Q m s) :
    Safe (spec C firm t) t (fun a s' => Grown s s' ∧ Standing p t s' ∧ Q a s')
      (fun _ s' => Grown s s' ∧ Standing p t s') m s := by
  refine Safe.since Grown.refl Grown.trans Onward.toGrown ?_ h
  intro c i s hi _ _
  exact grown_run (Sane.distinct hi) c

theorem Goes.bind {m : Thread α} {k : α → Thread β} (hm : Goes C firm p t Q m s)
    (hk : ∀ a s', Grown s s' → Sane s' → Standing p t s' → Q a s' → Goes C firm p t R (k a) s') :
    Goes C firm p t R (m.bind k) s :=
  Safe.bind (hm.grown.mono (fun a s' hi h => hk a s' h.1 hi h.2.1 h.2.2) fun _ _ _ hx => hx.2)

theorem Goes.handle {m : Thread α} {f : Exn → Thread α} (hm : Goes C firm p t Q m s)
    (hf : ∀ e s', Grown s s' → Sane s' → Standing p t s' → Goes C firm p t Q (f e) s') :
    Goes C firm p t Q (m.handle f) s :=
  Safe.handle (hm.grown.mono (fun _ _ _ h => h.2) fun e s' hi h => hf e s' h.1 hi h.2)

theorem Goes.attempt_bind {m : Thread α} {k : Except Exn α → Thread β}
    (hm : Goes C firm p t Q m s)
    (hok : ∀ a s', Grown s s' → Sane s' → Standing p t s' → Q a s' →
      Goes C firm p t R (k (.ok a)) s')
    (herr : ∀ e s', Grown s s' → Sane s' → Standing p t s' → Goes C firm p t R (k (.error e)) s') :
    Goes C firm p t R (m.attempt.bind k) s :=
  Safe.attempt_bind (hm.grown.mono (fun a s' hi h => hok a s' h.1 hi h.2.1 h.2.2)
    fun e s' hi h => herr e s' h.1 hi h.2)

theorem Goes.of_except {r : Except Exn α} (hs : Standing p t s)
    (hq : ∀ a, r = .ok a → ∀ s', Onward firm t s s' → Sane s' → Q a s') :
    Goes C firm p t Q (Prog.ofExcept r) s := by
  cases r with
  | ok a => exact Goes.ret hs (hq a rfl)
  | error e => exact Goes.raise hs

theorem Goes.except_bind {r : Except Exn α} {k : α → Thread β} (hs : Standing p t s)
    (hk : ∀ a, r = .ok a → Goes C firm p t R (k a) s) :
    Goes C firm p t R ((Prog.ofExcept r).bind k) s := by
  cases r with
  | ok a => exact hk a rfl
  | error e => exact Goes.raise hs

theorem Goes.look_bind {f : Tid → Input → World → Except Exn α} {k : α → Thread β}
    (hs : Standing p t s)
    (hk : ∀ i a s', Onward firm t s s' → Sane s' → Standing p t s' → f t i s' = .ok a →
      Goes C firm p t R (k a) s') :
    Goes C firm p t R ((look f).bind k) s :=
  Safe.call_bind fun s' hr hi i _ => ⟨trivial, fun a ha => hk i a s' hr hi (hs.onward hr) ha,
    fun _ _ => Goes.raise (hs.onward hr)⟩

theorem Goes.of_look {f : Tid → Input → World → Except Exn α} (hs : Standing p t s)
    (hq : ∀ i a s' s'', Onward firm t s s' → Sane s' → f t i s' = .ok a → Onward firm t s' s'' →
      Sane s'' → Q a s'') :
    Goes C firm p t Q (look f) s :=
  Safe.call fun s' hr hi i _ => ⟨trivial,
    fun a ha => Goes.ret (hs.onward hr) fun s'' hr' hi' => hq i a s' s'' hr hi ha hr' hi',
    fun _ _ => Goes.raise (hs.onward hr)⟩

/-- A call and what comes after it. -/
theorem Goes.ask_bind {c : Call} {k : c.Reply → Thread β} (hs : Standing p t s)
    (hc : c.plain = true)
    (hp : ∀ s', Onward firm t s s' → Sane s' → Standing p t s' → Permitted C firm t c s')
    (hk : ∀ i a s' s'', Onward firm t s s' → Sane s' → c.run C t i s' = (.ok a, s'') →
      Grown s s'' → Sane s'' → Standing p t s'' → Kept c t s' s'' →
      Goes C firm p t R (k a) s'') :
    Goes C firm p t R ((ask C c).bind k) s := by
  refine Safe.call_bind fun s' hr hi i _ => ?_
  have hs' := hs.onward hr
  have hper := hp s' hr hi hs'
  have hrun := run_outcome C c t i s'
  have hs'' := hs'.outcome hc hrun
  refine ⟨hper, fun a ha => ?_, fun _ _ => Goes.raise hs''⟩
  exact hk i a s' _ hr hi (Prod.ext ha rfl) (hr.toGrown.trans (grown_run hi.distinct c))
    (sane_run hi hper) hs'' (kept_outcome hrun)

/-- A call whose reply does not matter later. -/
theorem Goes.of_ask {c : Call} (hs : Standing p t s) (hc : c.plain = true)
    (hp : ∀ s', Onward firm t s s' → Sane s' → Standing p t s' → Permitted C firm t c s')
    {Q : c.Reply → World → Prop}
    (hq : ∀ i a s' s'', Onward firm t s s' → Sane s' → c.run C t i s' = (.ok a, s'') →
      Grown s s'' → Sane s'' → Standing p t s'' → Kept c t s' s'' →
      ∀ s₃, Onward firm t s'' s₃ → Sane s₃ → Q a s₃) :
    Goes C firm p t Q (ask C c) s := by
  refine Safe.call fun s' hr hi i _ => ?_
  have hs' := hs.onward hr
  have hper := hp s' hr hi hs'
  have hrun := run_outcome C c t i s'
  have hs'' := hs'.outcome hc hrun
  refine ⟨hper, fun a ha => Goes.ret hs'' ?_, fun _ _ => Goes.raise hs''⟩
  exact hq i a s' _ hr hi (Prod.ext ha rfl) (hr.toGrown.trans (grown_run hi.distinct c))
    (sane_run hi hper) hs'' (kept_outcome hrun)

/-! ### The steps the code is made of -/

/-- `if lease_lost.is_set(): return r`: a worker that goes on has done nothing late. -/
theorem Goes.unless_lost {r : β} {m : Thread β} (hs : Standing p t s) (hr : ∀ s', R r s')
    (hk : ∀ s', Onward firm t s s' → Sane s' → Standing p t s' → s'.late t = [] →
      Goes C firm p t R m s') :
    Goes C firm p t R (lease_lost.bind fun b => if b = true then .ret r else m) s := by
  refine Goes.look_bind hs fun i b s' ho hi hs' hb => ?_
  obtain rfl : s'.lost t = b := Except.ok.inj hb
  cases hl : s'.lost t with
  | true => exact Goes.ret hs' fun s'' _ _ => hr s''
  | false => exact hk s' ho hi hs' (hi.on_time hl)

theorem get_quest_ok {quest_id : String} {q : Quest} {s : World}
    (h : (match s.quest quest_id with
      | some q => .ok q
      | none => .error (.app "QUEST_NOT_FOUND" ("Quest '" ++ quest_id ++ "' was not found") 404)
        : Except Exn Quest) = .ok q) : s.quest quest_id = some q := by
  split at h
  · rename_i q' hq
    rw [hq, Except.ok.inj h]
  · exact absurd h (by simp)

theorem Goes.get_quest_bind {quest_id : String} {k : Quest → Thread β} (hs : Standing p t s)
    (hk : ∀ q s', Onward firm t s s' → Sane s' → Standing p t s' → Snap s' q → q.id = quest_id →
      Goes C firm p t R (k q) s') :
    Goes C firm p t R ((get_quest quest_id).bind k) s := by
  refine Goes.look_bind hs fun i q s' ho hi hs' hq => ?_
  have hq := get_quest_ok (Input.stored_ok hq)
  exact hk q s' ho hi hs' (hi.snap hq) (hi.quest_id hq)

theorem Change.Allowed.grown {s s' : World} (h : Grown s s') {q : Quest} {c : Change}
    (ha : c.Allowed C s q) : c.Allowed C s' q := by
  cases c with
  | milestoneVerified m evidence_ids => exact ⟨ha.1, h.covers ha.2⟩
  | artifactReviewUnavailable | questCompleted => exact ⟨ha.1, h.verified ha.2⟩
  | _ => exact ha

theorem run_ok {c : Call} {i : Input} {a : c.Reply} {s s' : World}
    (h : c.run C t i s = (.ok a, s')) : c.body C t i s = .ok (a, s') := by
  unfold Call.run at h
  split at h
  · exact absurd h (by simp)
  · unfold Transact.transaction at h
    split at h
    · rename_i hb
      rw [hb]
      simp only [Prod.mk.injEq, Except.ok.injEq] at h
      rw [h.1, h.2]
    · exact absurd h (by simp)

theorem mem_push_events {s : World} {t : Tid} {id : String} {e : EventRow} :
    e ∈ (s.push t id e).events id := by
  rw [push_events, update_self]
  exact List.mem_cons_self

theorem append_event_ok {q : Quest} {c : Change} {i : Input} {a : Quest} {s s' : World}
    (h : (Call.append_event q c).run C t i s = (.ok a, s')) :
    ∃ cur, s.quest q.id = some cur ∧ cur.state_version = q.state_version
      ∧ a = (eventOn cur true c.event_type (c.patch C.H q i.now)).after
      ∧ s' = s.push t q.id (eventOn cur true c.event_type (c.patch C.H q i.now)) := by
  have ho := run_outcome C (.append_event q c) t i s
  rw [h] at ho
  cases ho with
  | append_event hcur hv => exact ⟨_, hcur, hv, rfl, rfl⟩

/-- An event and no more. -/
theorem Goes.of_append {q : Quest} {c : Change} {Q : Quest → World → Prop} (hs : Standing p t s)
    (hq : Snap s q) (ha : c.Allowed C s q) (ht : Timely t s c)
    (hc : c = .artifactReviewConfigured ∨ c = .goalContractRejected ∨ Confirmed s q.id)
    (hk : ∀ a s', Q a s') : Goes C firm p t Q (append_event C q c) s := by
  refine Goes.of_ask (c := .append_event q c) hs rfl (fun s' ho _ _ => ?_)
    fun _ a _ _ _ _ _ _ _ _ _ s' _ _ => hk a s'
  refine ⟨ho.snap hq, ha.grown ho.toGrown, ?_, hc.imp_right (Or.imp_right ho.toGrown.confirmed)⟩
  rw [Timely, ho.aside.late]
  exact ht

/-- An event on a projection that was read. -/
theorem Goes.append_bind {q : Quest} {c : Change} {k : Quest → Thread β} (hs : Standing p t s)
    (hq : Snap s q) (ha : c.Allowed C s q) (ht : Timely t s c)
    (hc : c = .artifactReviewConfigured ∨ c = .goalContractRejected ∨ Confirmed s q.id)
    (hk : ∀ now s', Grown s s' → Sane s' → Standing p t s' →
      Snap s' (eventOn q true c.event_type (c.patch C.H q now)).after →
      (s'.late t = s.late t ∨ s'.late t = s.late t ++ [.append c.event_type]) →
      Goes C firm p t R (k (eventOn q true c.event_type (c.patch C.H q now)).after) s') :
    Goes C firm p t R ((append_event C q c).bind k) s := by
  refine Goes.ask_bind hs rfl (fun s' ho hi _ => ?_) fun i a s' s'' ho hi hrun hg hi'' hs'' _ => ?_
  · refine ⟨ho.snap hq, ha.grown ho.toGrown, ?_, ?_⟩
    · rw [Timely, ho.aside.late]
      exact ht
    · exact hc.imp_right (Or.imp_right ho.toGrown.confirmed)
  · obtain ⟨cur, hcur, hv, rfl, rfl⟩ := append_event_ok hrun
    obtain rfl := hi.current (ho.snap hq) hcur hv
    refine hk i.now _ hg hi'' hs'' ⟨_, ?_, rfl, rfl⟩ ?_
    · exact mem_push_events
    · rw [← ho.aside.late, push_late]
      split
      · exact .inr (update_self _ _ _)
      · exact .inl rfl

end

end ProjectTown.Service
