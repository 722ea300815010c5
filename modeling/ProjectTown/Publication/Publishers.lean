import ProjectTown.Publication.Outcomes

/-!
# Publishers of one path

In every interleaving of publishers, with any of their calls failing, what was at the path
stays there, one publisher at most succeeds, and each ends as its outcome says.
-/

namespace ProjectTown.Publication

open Interleave (Tid Prog Pool Safe Sound Moves Move Reachable)
open SafeFiles (Metadata)

variable {t u : Tid} {path : Name} {s s₀ : Directory}

/-! ## Publishers beside each other -/

/-- What holds once a call has ended. -/
def Leaves (t : Tid) (ending : Ending path) (s : Directory) : Prop :=
  ∃ v, Has t v s ∧ match ending.2 with
    | .ok () => ∃ data i, ending.1.data = some data ∧ v = .owns [path] i data
    | .error e => Fails path e v

/-- Nobody has published yet. -/
structure Untouched (s : Directory) : Prop where
  bound : ∀ n i, s.names n = some i → i < s.drawn
  created : s.created = []

theorem Untouched.sane (h : Untouched s) : Sane s :=
  ⟨h.bound, fun t i hi => absurd hi (by simp [h.created]),
    fun t u i hi => absurd hi (by simp [h.created])⟩

theorem serve_safe (r : Request path) (h : Has t .nothing s) :
    Safe (spec t) t (fun o s => match o with | some ending => Leaves t ending s | none => True)
      (fun _ _ => True) (serve r) s := by
  have hends := Runs.bind (Runs.attempt (X := fun _ _ => False) (publish_runs (t := t) r))
    (R := fun o v => ∃ result, o = some (r, result) ∧ match result with
      | .ok () => ∃ data i, r.data = some data ∧ v = .owns [path] i data
      | .error e => Fails path e v)
    (k := fun result => (pure (some (r, result)) : Op (Option (Ending path)))) ?_
  · refine (hends s h).mono ?_ fun _ _ _ _ => trivial
    rintro _ s' _ ⟨v, hv, result, rfl, hresult⟩
    exact ⟨v, hv, hresult⟩
  · rintro result v hresult
    cases result with
    | ok => exact .ret ⟨_, rfl, hresult⟩
    | error e => exact .ret ⟨_, rfl, hresult⟩

theorem sound (h : Untouched s₀) :
    Sound (publishers path) Moves.all spec (@Leaves path) (fun _ _ => True)
      (fun t => Has t .nothing) s₀ where
  inv_eq _ _ := rfl
  step_eq _ := rfl
  inv_init := h.sane
  cond_of _ _ _ _ _ := trivial
  guar_inv t call chance s _ hs hg := (step_kept hg).sane hs
  guar_rely t u call chance s htu _ _ hs hg := (step_kept hg).rely hs htu
  ready_step _ _ _ _ h := h
  ready_arrive _ _ _ h := h
  ready_env v _ _ := v.elim
  arrive_inv _ _ _ _ _ hs := hs
  arrive_rely _ _ _ _ _ _ _ _ := .refl
  env_inv _ v := v.elim
  env_rely _ v := v.elim
  crash_inv _ _ _ hs := hs
  fresh_init t i hi := absurd hi (by simp [h.created])
  fresh_guar t u call chance s htu _ hs hg hu := Has.rely hu ((step_kept hg).rely hs htu)
  fresh_arrive _ _ _ _ _ _ _ hu := hu
  fresh_env _ v := v.elim
  fresh_crash _ _ _ hu := hu
  code_safe t ending s _ hpre := by
    intro s' hr _
    obtain ⟨v, hv, hending⟩ := hpre
    exact ⟨v, hv.rely hr, hending⟩
  request_safe t r s _ _ _ hfresh :=
    (serve_safe r hfresh).mono (fun o _ _ ho => by cases o <;> exact ho) fun _ _ _ he => he
  boot_safe _ _ _ _ _ := fun _ _ _ => trivial

/-! ## What publishing keeps to -/

/-- The call of a thread has ended so. -/
def Ended (P : Pool Directory Chance Exc Call (Ending path)) (t : Tid) (r : Request path)
    (result : Except Exc Unit) : Prop :=
  P.threads[t]? = some (some (.ret (some (r, result))))

/-- What publishing keeps to, in one moment of a run. -/
structure Upheld (path : Name) (s₀ : Directory)
    (P : Pool Directory Chance Exc Call (Ending path)) : Prop where
  /-- What was at the path is there, with what was in it. -/
  kept : ∀ i, s₀.names path = some i →
    P.state.names path = some i ∧ P.state.files i = s₀.files i
  /-- No call that is made next removes or writes to what its publisher did not make. -/
  spared : ∀ t call next, P.threads[t]? = some (some (.act call next)) →
    ∀ chance n i, P.state.names n = some i → (t, i) ∉ P.state.created →
      (step t call chance P.state).names n = some i ∧
        (step t call chance P.state).files i = P.state.files i
  one : ∀ t u r r', Ended P t r (.ok ()) → Ended P u r' (.ok ()) → t = u
  /-- The path is a regular file with the data and no other name. -/
  success : ∀ t r, Ended P t r (.ok ()) → ∃ data i device, r.data = some data ∧
    P.state.names path = some i ∧ P.state.files i = ⟨0x8180, device, 1, false, data⟩ ∧
    (t, i) ∈ P.state.created ∧ ∀ n, P.state.names n = some i → n = path
  /-- Nothing this call made is at the path. -/
  failure : ∀ t r e, Ended P t r (.error e) → e ≠ .attention →
    ∀ i, P.state.names path = some i → (t, i) ∉ P.state.created
  /-- What is left under another name is empty. -/
  rollback : ∀ t r, Ended P t r (.error .rollback) → ∀ n i, P.state.names n = some i →
    (t, i) ∈ P.state.created → (P.state.files i).content = []

theorem kept_of_reachable (h : Untouched s₀) {P : Pool Directory Chance Exc Call (Ending path)}
    (hr : Reachable (publishers path) Moves.all s₀ P) {i : Nat}
    (hi : s₀.names path = some i) :
    P.state.names path = some i ∧ P.state.files i = s₀.files i := by
  have hinv := Interleave.invariant_of_guar (sound h) (J := fun s =>
      s.names path = some i ∧ s.files i = s₀.files i ∧ i < s.drawn ∧ ∀ t, (t, i) ∉ s.created)
    ⟨hi, rfl, h.bound _ _ hi, by simp [h.created]⟩ ?_ (fun _ _ _ _ _ _ hJ => hJ)
    (fun v => v.elim) (fun _ _ hJ => hJ) hr
  · exact ⟨hinv.1, hinv.2.1⟩
  · rintro t call chance s - hs hg ⟨hname, hfile, hlt, hnew⟩
    have hk : Kept t s (step t call chance s) := step_kept hg
    have hnew' : ∀ u, (u, i) ∉ (step t call chance s).created := by
      intro u
      rcases hk.created with ⟨hc, -⟩ | ⟨hc, -⟩
      · rw [hc]
        exact hnew u
      · rw [hc, List.mem_append, List.mem_singleton, Prod.mk.injEq]
        rintro (hmem | ⟨-, rfl⟩)
        · exact hnew u hmem
        · exact Nat.lt_irrefl _ hlt
    refine ⟨(hk.names i (hnew' t) path).mpr hname, (hk.files i (hnew' t)).trans hfile, ?_, hnew'⟩
    rcases hk.created with ⟨-, hd⟩ | ⟨-, hd⟩
    · exact hd ▸ hlt
    · exact hd ▸ Nat.lt_succ_of_lt hlt

theorem spared_of_reachable (h : Untouched s₀) {P : Pool Directory Chance Exc Call (Ending path)}
    (hr : Reachable (publishers path) Moves.all s₀ P) {call : Call}
    {next : Tid → Chance → Directory → Op (Option (Ending path))}
    (ht : P.threads[t]? = some (some (.act call next))) (chance : Chance) {n : Name} {i : Nat}
    (hn : P.state.names n = some i) (hnot : (t, i) ∉ P.state.created) :
    (step t call chance P.state).names n = some i ∧
      (step t call chance P.state).files i = P.state.files i := by
  have hsane : Sane P.state := (Interleave.safe_of_reachable (sound h) hr).inv 0
  have hg : Guar t P.state call :=
    Interleave.guar_of_reachable (sound h) hr ht (i := chance) trivial
  have hk : Kept t P.state (step t call chance P.state) := step_kept hg
  have hnot' : (t, i) ∉ (step t call chance P.state).created := by
    rcases hk.created with ⟨hc, -⟩ | ⟨hc, -⟩
    · rw [hc]
      exact hnot
    · rw [hc, List.mem_append, List.mem_singleton, Prod.mk.injEq]
      rintro (hmem | ⟨-, rfl⟩)
      · exact hnot hmem
      · exact Nat.lt_irrefl _ (hsane.bound n _ hn)
  exact ⟨(hk.names i hnot' n).mpr hn, hk.files i hnot'⟩

theorem leaves_of_ended (h : Untouched s₀) {P : Pool Directory Chance Exc Call (Ending path)}
    (hr : Reachable (publishers path) Moves.all s₀ P) {r : Request path}
    {result : Except Exc Unit} (he : Ended P t r result) : Leaves t (r, result) P.state := by
  have hP := Interleave.safe_of_reachable (sound h) hr
  exact hP.safe t _ he P.state .refl (hP.inv t)

/-- **In every run of publishers of one path, what was there stays, one at most succeeds, and
each leaves what its outcome says.** -/
theorem publishers_upheld (h : Untouched s₀) {P : Pool Directory Chance Exc Call (Ending path)}
    (hr : Reachable (publishers path) Moves.all s₀ P) : Upheld path s₀ P := by
  have hsane : Sane P.state := (Interleave.safe_of_reachable (sound h) hr).inv 0
  have hsuccess : ∀ t r, Ended P t r (.ok ()) → ∃ data i device, r.data = some data ∧
      P.state.names path = some i ∧ P.state.files i = ⟨0x8180, device, 1, false, data⟩ ∧
      (t, i) ∈ P.state.created ∧ ∀ n, P.state.names n = some i → n = path := by
    intro t r he
    obtain ⟨v, hv, data, i, hdata, rfl⟩ := leaves_of_ended h hr he
    have howns : Owns t [path] i data P.state := hv
    obtain ⟨device, hfile⟩ := howns.file
    exact ⟨data, i, device, hdata, howns.inode_of_mem (List.mem_singleton_self _), hfile,
      howns.mine, fun n hn => List.mem_singleton.mp ((howns.leads n).mp hn)⟩
  refine ⟨fun i hi => kept_of_reachable h hr hi,
    fun t call next ht chance n i hn hnot => spared_of_reachable h hr ht chance hn hnot,
    fun t u r r' ht hu => ?_, hsuccess, fun t r e he hne i hi hmine => ?_,
    fun t r he n i hn hmine => ?_⟩
  · obtain ⟨_, i, _, -, hi, -, hmine, -⟩ := hsuccess t r ht
    obtain ⟨_, j, _, -, hj, -, hmine', -⟩ := hsuccess u r' hu
    obtain rfl : i = j := Option.some.inj (hi.symm.trans hj)
    exact hsane.maker t u i hmine hmine'
  · obtain ⟨v, hv, hfails⟩ := leaves_of_ended h hr he
    have hw : Withdrawn path e v := hfails.resolve_left hne
    cases v with
    | nothing => exact hv i hmine
    | owns names inode c =>
        have howns : Owns t names inode c P.state := hv
        obtain rfl := (howns.created i).mp hmine
        exact hw.1 ((howns.leads path).mp hi)
  · obtain ⟨v, hv, hfails⟩ := leaves_of_ended h hr he
    have hw : Withdrawn path .rollback v := hfails.resolve_left (by simp)
    cases v with
    | nothing => exact absurd hmine (hv i)
    | owns names inode c =>
        have howns : Owns t names inode c P.state := hv
        obtain rfl := (howns.created i).mp hmine
        obtain ⟨device, hfile⟩ := howns.file
        rcases hw.2 rfl with rfl | rfl
        · exact absurd ((howns.leads n).mp hn) List.not_mem_nil
        · rw [hfile]

/-! ## Two publishers -/

def folder : Metadata := ⟨0x4000, 0, 0, 0, 1, 1, 2, false⟩

def emptyDirectory : Directory := ⟨fun _ => none, fun _ => newFile 1, 2, folder, []⟩

/-- A call for a file `a` in the folder. -/
def requestOf (token : String) (data : Bytes) (h : temporaryName token ≠ "a") : Request "a" where
  direct_child := true
  data := some data
  root_absolute := true
  root := folder
  root_canonical := true
  path_absolute := true
  parent_canonical := true
  path_canonical := true
  parent_is_root := true
  inside := false
  token := token
  unguessed := h

/-- Nothing fails, and nine bytes are written or read at a time. -/
def calm : Chance := ⟨none, 9, 0, 0, false⟩

/-- The second publisher has written its bytes when the first starts, and goes on when that has
ended. -/
def race : List (Move Chance (Request "a") Empty) :=
  .request (requestOf "00" [0x61] (by decide)) :: .request (requestOf "01" [0x62] (by decide)) ::
    (List.replicate 12 (.run 1 calm) ++ List.replicate 33 (.run 0 calm)
      ++ List.replicate 15 (.run 1 calm))

/-- How a call has ended, with nothing for a return. -/
def endingOf {path : Name} (P : Pool Directory Chance Exc Call (Ending path)) (t : Tid) :
    Option (Option Exc) :=
  match P.threads[t]? with
  | some (some (.ret (some (_, .ok ())))) => some none
  | some (some (.ret (some (_, .error e)))) => some (some e)
  | _ => none

theorem race_upheld : ∃ P, Interleave.execAll (publishers "a") ⟨emptyDirectory, []⟩ race = some P ∧
    endingOf P 0 = some none ∧ endingOf P 1 = some (some (.workflow "OUTPUT_PUBLISH_FAILED")) ∧
    P.state.names "a" = some 3 ∧ (P.state.files 3).content = [0x61] ∧
    Upheld "a" emptyDirectory P := by
  have hrun : (Interleave.execAll (publishers "a") ⟨emptyDirectory, []⟩ race).map (fun P =>
      (endingOf P 0, endingOf P 1, P.state.names "a", (P.state.files 3).content)) =
      some (some none, some (some (.workflow "OUTPUT_PUBLISH_FAILED")), some 3, [0x61]) := by
    decide +kernel
  obtain ⟨P, hP, hends⟩ := Option.map_eq_some_iff.mp hrun
  simp only [Prod.mk.injEq] at hends
  exact ⟨P, hP, hends.1, hends.2.1, hends.2.2.1, hends.2.2.2,
    publishers_upheld ⟨fun _ _ h => absurd h (by simp [emptyDirectory]), rfl⟩
      (Interleave.reachable_of_execAll .init hP)⟩

end ProjectTown.Publication
