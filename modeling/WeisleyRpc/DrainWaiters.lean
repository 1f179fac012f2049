import WeisleyRpc.ServerClose

/-!
# Who waits for the active requests

A graceful `close` puts a function into `drainResolvers` while it waits, and the last
request to end calls all of them. The drain timer looks for another function than the one
that was put there, so the entry of a call that it has settled stays.
-/

namespace WeisleyRpc.Server

/-- The promise of the call's `waitForActiveRequests` is unsettled. -/
def Closer.waits (x : Closer) : Bool := x.awaitsDrain && !x.drained

/-- `drainResolvers` has one entry for each waiting call and no other. -/
structure WaitersRegistered (w : World) : Prop where
  entry : ∀ c, w.drainResolvers.count (.resolver c) =
    if c < w.nextCloser ∧ (w.closers c).waits = true then 1 else 0
  inner : ∀ c, .resolve c ∉ w.drainResolvers
  active : w.drainResolvers ≠ [] → 0 < w.activeRequests

def Event.isDrainTimeout : Event → Bool
  | .drainTimeout _ => true
  | _ => false

namespace World

/-- What holds of the entries whatever the timers do. -/
structure Entries (w : World) : Prop where
  nodup : w.drainResolvers.Nodup
  inner : ∀ c, .resolve c ∉ w.drainResolvers
  known : ∀ c, .resolver c ∈ w.drainResolvers → c < w.nextCloser
  waiting : ∀ c < w.nextCloser, (w.closers c).waits = true → .resolver c ∈ w.drainResolvers
  armed : ∀ c < w.nextCloser, (w.closers c).timer.isSome → (w.closers c).waits = true
  idle : w.activeRequests = 0 → w.drainResolvers = []

/-- No entry belongs to a call that has been settled. -/
def Fresh (w : World) : Prop := ∀ c, .resolver c ∈ w.drainResolvers → (w.closers c).waits = true

theorem entries_init (serializer : Serializer) : (World.init serializer).Entries :=
  ⟨List.nodup_nil, fun _ => List.not_mem_nil, fun _ hc => absurd hc List.not_mem_nil,
    fun _ hc => absurd hc (Nat.not_lt_zero _), fun _ hc => absurd hc (Nat.not_lt_zero _),
    fun _ => rfl⟩

theorem fresh_init (serializer : Serializer) : (World.init serializer).Fresh :=
  fun _ hc => absurd hc List.not_mem_nil

theorem Entries.active {w : World} (h : w.Entries) (hc : w.Counted)
    (hne : w.drainResolvers ≠ []) : 0 < w.activeRequests := by
  have hz : w.activeRequests ≠ 0 := fun hz => hne (h.idle hz)
  unfold Counted at hc
  omega

theorem Entries.registered_iff {w : World} (h : w.Entries) (hc : w.Counted) :
    WaitersRegistered w ↔ w.Fresh := by
  constructor
  · intro hr c hmem
    have hone := List.count_pos_iff.mpr hmem
    rw [hr.entry c] at hone
    split_ifs at hone with hwaits
    · exact hwaits.2
    · exact absurd hone (Nat.lt_irrefl 0)
  · intro hf
    refine ⟨?_, h.inner, h.active hc⟩
    intro c
    split_ifs with hwaits
    · exact List.count_eq_one_of_mem h.nodup (h.waiting c hwaits.1 hwaits.2)
    · refine List.count_eq_zero.mpr ?_
      intro hmem
      exact hwaits ⟨h.known c hmem, hf c hmem⟩

/-- The entries, and whom they belong to, are the same. -/
structure SameWaiters (w v : World) : Prop where
  drainResolvers : v.drainResolvers = w.drainResolvers
  nextCloser : v.nextCloser = w.nextCloser
  waits : ∀ c, (v.closers c).waits = (w.closers c).waits
  timer : ∀ c, (v.closers c).timer = (w.closers c).timer

theorem sameWaiters_of_eq {w v : World} (hd : v.drainResolvers = w.drainResolvers)
    (hn : v.nextCloser = w.nextCloser) (hc : v.closers = w.closers) : SameWaiters w v :=
  ⟨hd, hn, fun c => by rw [hc], fun c => by rw [hc]⟩

theorem sameWaiters_updateCloser (w : World) {c : CloseId} {f : Closer → Closer}
    (hw : (f (w.closers c)).waits = (w.closers c).waits)
    (ht : (f (w.closers c)).timer = (w.closers c).timer) : SameWaiters w (w.updateCloser c f) := by
  refine ⟨rfl, rfl, ?_, ?_⟩
  · intro c'
    simp only [updateCloser, Function.update_apply]
    split_ifs with hcc
    · rw [hcc]
      exact hw
    · rfl
  · intro c'
    simp only [updateCloser, Function.update_apply]
    split_ifs with hcc
    · rw [hcc]
      exact ht
    · rfl

theorem SameWaiters.trans {u v w : World} (h : SameWaiters u v) (h' : SameWaiters v w) :
    SameWaiters u w :=
  ⟨h'.drainResolvers.trans h.drainResolvers, h'.nextCloser.trans h.nextCloser,
    fun c => (h'.waits c).trans (h.waits c), fun c => (h'.timer c).trans (h.timer c)⟩

theorem Entries.same {w v : World} (h : w.Entries) (hs : SameWaiters w v)
    (ha : v.activeRequests = 0 → w.activeRequests = 0) : v.Entries := by
  obtain ⟨hd, hn, hwaits, htimer⟩ := hs
  refine ⟨hd ▸ h.nodup, hd ▸ h.inner, ?_, ?_, ?_, fun hz => hd.trans (h.idle (ha hz))⟩
  · rw [hd, hn]
    exact h.known
  · intro c hc hw
    rw [hd]
    exact h.waiting c (hn ▸ hc) (hwaits c ▸ hw)
  · intro c hc ht
    rw [hwaits]
    exact h.armed c (hn ▸ hc) (htimer c ▸ ht)

theorem Fresh.same {w v : World} (h : w.Fresh) (hs : SameWaiters w v) : v.Fresh := by
  intro c hmem
  rw [hs.waits]
  exact h c (hs.drainResolvers ▸ hmem)

theorem waits_of_phase {x : Closer} (h : x.phase ≠ .draining) : x.waits = false := by
  unfold Closer.waits Closer.awaitsDrain
  split
  · exact absurd (by assumption) h
  · rfl

theorem Entries.woken {w v : World} (h : w.Entries) (hd : v.drainResolvers = [])
    (hn : v.nextCloser = w.nextCloser) (hc : v.closers = wake w.drainResolvers w.closers) :
    v.Entries := by
  refine ⟨hd ▸ List.nodup_nil, fun c hmem => ?_, fun c hmem => ?_, ?_, ?_, fun _ => hd⟩
  · rw [hd] at hmem
    exact absurd hmem List.not_mem_nil
  · rw [hd] at hmem
    exact absurd hmem List.not_mem_nil
  · intro c hlt hw
    rw [hc, wake] at hw
    split_ifs at hw with hmem hinner
    · simp [Closer.waits] at hw
    · exact absurd hinner (h.inner c)
    · exact absurd (h.waiting c (hn ▸ hlt) hw) hmem
  · intro c hlt ht
    rw [hc, wake] at ht
    split_ifs at ht with hmem hinner
    · cases ht
    · exact absurd hinner (h.inner c)
    · exact absurd (h.waiting c (hn ▸ hlt) (h.armed c (hn ▸ hlt) ht)) hmem

/-- A micro step of a handler leaves the waiting calls alone or settles all of them. -/
theorem micro_waiters {k : SocketId} {w w' : World} (h : Micro k w w') (hc : w.Counted) :
    (SameWaiters w w' ∧ (w'.activeRequests = 0 → w.activeRequests = 0)) ∨
      (w'.drainResolvers = [] ∧ w'.nextCloser = w.nextCloser ∧
        w'.closers = wake w.drainResolvers w.closers) := by
  have hfinish : ∀ f : ServerSocket → ServerSocket,
      (SameWaiters w (w.finishRequest k f) ∧
        ((w.finishRequest k f).activeRequests = 0 → w.activeRequests = 0)) ∨
      ((w.finishRequest k f).drainResolvers = [] ∧ (w.finishRequest k f).nextCloser =
        w.nextCloser ∧ (w.finishRequest k f).closers = wake w.drainResolvers w.closers) := by
    intro f
    rcases finishRequest_cases w k f with ⟨hne, he⟩ | ⟨-, he⟩ <;> rw [he]
    · exact Or.inl ⟨sameWaiters_of_eq rfl rfl rfl, fun hz => absurd hz hne⟩
    · exact Or.inr ⟨rfl, rfl, rfl⟩
  cases h with
  | start =>
    refine Or.inl ⟨sameWaiters_of_eq rfl rfl rfl, fun hz => ?_⟩
    unfold Counted at hc
    simp only [World.start] at hz
    omega
  | abort => exact hfinish _
  | finish => exact hfinish _
  | _ => exact Or.inl ⟨sameWaiters_of_eq rfl rfl rfl, id⟩

theorem Entries.micro {k : SocketId} {w w' : World} (h : w.Entries) (hc : w.Counted)
    (hm : Micro k w w') : w'.Entries := by
  rcases micro_waiters hm hc with ⟨hs, ha⟩ | ⟨hd, hn, hw⟩
  · exact h.same hs ha
  · exact h.woken hd hn hw

theorem Fresh.micro {k : SocketId} {w w' : World} (h : w.Fresh) (hc : w.Counted)
    (hm : Micro k w w') : w'.Fresh := by
  rcases micro_waiters hm hc with ⟨hs, -⟩ | ⟨hd, -, -⟩
  · exact h.same hs
  · intro c hmem
    rw [hd] at hmem
    exact absurd hmem List.not_mem_nil

theorem Entries.micros {k : SocketId} {w w' : World} (h : w.Entries) (hc : w.Counted)
    (hk : k < w.nextSocket) (hm : Micros k w w') : w'.Entries ∧ (w.Fresh → w'.Fresh) :=
  (hm.invariant (I := fun v => (v.Entries ∧ (w.Fresh → v.Fresh)) ∧ v.Counted ∧ k < v.nextSocket)
    (fun _ _ hs hi => ⟨⟨hi.1.1.micro hi.2.1 hs, fun hf => (hi.1.2 hf).micro hi.2.1 hs⟩,
      hi.2.1.micro hi.2.2 hs, hs.same.nextSocket ▸ hi.2.2⟩) ⟨⟨h, id⟩, hc, hk⟩).1

/-- A call is added. -/
structure Begun (w v : World) (x : Closer) : Prop where
  nextCloser : v.nextCloser = w.nextCloser + 1
  closers : v.closers = Function.update w.closers w.nextCloser x
  activeRequests : v.activeRequests = w.activeRequests

namespace Begun
variable {w v : World} {x : Closer} {c : CloseId}

theorem self (h : Begun w v x) : v.closers w.nextCloser = x := by
  rw [h.closers, Function.update_self]

theorem old (h : Begun w v x) (hlt : c < w.nextCloser) : v.closers c = w.closers c := by
  rw [h.closers, Function.update_apply, if_neg (Nat.ne_of_lt hlt)]

theorem lt_or_eq (h : Begun w v x) (hlt : c < v.nextCloser) :
    c < w.nextCloser ∨ c = w.nextCloser := by
  rw [h.nextCloser] at hlt
  exact Nat.lt_or_eq_of_le (Nat.le_of_lt_succ hlt)

theorem armed (h : Begun w v x) (he : w.Entries) (hx : x.timer.isSome → x.waits) :
    ∀ c < v.nextCloser, (v.closers c).timer.isSome → (v.closers c).waits := by
  intro c hlt ht
  rcases h.lt_or_eq hlt with hlt | rfl
  · rw [h.old hlt] at ht ⊢
    exact he.armed c hlt ht
  · rw [h.self] at ht ⊢
    exact hx ht

end Begun

theorem Entries.begun_idle {w v : World} {x : Closer} (h : w.Entries) (hb : Begun w v x)
    (hd : v.drainResolvers = w.drainResolvers) (hwaits : x.waits = false)
    (htimer : x.timer = none) : v.Entries ∧ (w.Fresh → v.Fresh) := by
  refine ⟨⟨hd ▸ h.nodup, hd ▸ h.inner, ?_, ?_, hb.armed h (by simp [htimer]),
    fun hz => hd.trans (h.idle (hb.activeRequests ▸ hz))⟩, ?_⟩
  · intro c hmem
    rw [hb.nextCloser]
    exact Nat.lt_succ_of_lt (h.known c (hd ▸ hmem))
  · intro c hlt hw
    rcases hb.lt_or_eq hlt with hlt | rfl
    · rw [hb.old hlt] at hw
      exact hd ▸ h.waiting c hlt hw
    · rw [hb.self, hwaits] at hw
      cases hw
  · intro hf c hmem
    have hmem' := hd ▸ hmem
    rw [hb.old (h.known c hmem')]
    exact hf c hmem'

theorem Entries.begun_waiting {w v : World} {x : Closer} (h : w.Entries) (hb : Begun w v x)
    (hd : v.drainResolvers = w.drainResolvers ++ [.resolver w.nextCloser]) (hwaits : x.waits = true)
    (hactive : w.activeRequests ≠ 0) : v.Entries ∧ (w.Fresh → v.Fresh) := by
  have hmem : ∀ r, r ∈ v.drainResolvers ↔ r ∈ w.drainResolvers ∨ r = .resolver w.nextCloser := by
    intro r
    rw [hd, List.mem_append, List.mem_singleton]
  refine ⟨⟨?_, ?_, ?_, ?_, hb.armed h fun _ => hwaits,
    fun hz => absurd (hb.activeRequests ▸ hz) hactive⟩, ?_⟩
  · rw [hd]
    refine List.nodup_append.mpr ⟨h.nodup, List.nodup_singleton _, ?_⟩
    rintro r hr r' hr' rfl
    rw [List.mem_singleton.mp hr'] at hr
    exact absurd (h.known _ hr) (Nat.lt_irrefl _)
  · intro c hr
    rcases (hmem _).mp hr with hr | hr
    · exact h.inner c hr
    · cases hr
  · intro c hr
    rw [hb.nextCloser]
    rcases (hmem _).mp hr with hr | hr
    · exact Nat.lt_succ_of_lt (h.known c hr)
    · obtain rfl := DrainResolver.resolver.inj hr
      exact Nat.lt_succ_self _
  · intro c hlt hw
    rcases hb.lt_or_eq hlt with hlt | rfl
    · rw [hb.old hlt] at hw
      exact (hmem _).mpr (Or.inl (h.waiting c hlt hw))
    · exact (hmem _).mpr (Or.inr rfl)
  · intro hf c hr
    rcases (hmem _).mp hr with hr | hr
    · rw [hb.old (h.known c hr)]
      exact hf c hr
    · obtain rfl := DrainResolver.resolver.inj hr
      rw [hb.self]
      exact hwaits

theorem Entries.close {w : World} (h : w.Entries) (o : RpcServerCloseOptions) :
    (w.close o).Entries ∧ (w.Fresh → (w.close o).Fresh) := by
  rcases close_cases w o with ⟨-, he⟩ | ⟨n, -, ⟨-, -, he⟩ | ⟨-, hne, he⟩ | ⟨-, he⟩⟩ <;> rw [he]
  · exact h.begun_idle ⟨rfl, rfl, rfl⟩ rfl rfl rfl
  · rw [beginDrain, closeServer_eq]
    exact h.begun_idle ⟨rfl, rfl, rfl⟩ rfl rfl rfl
  · rw [beginDrain, closeServer_eq]
    exact h.begun_waiting ⟨rfl, rfl, rfl⟩ rfl rfl hne
  · rw [beginClose, closeServer_eq]
    exact h.begun_idle ⟨rfl, rfl, rfl⟩ rfl rfl rfl

theorem drainResolvers_drainTimeout {w : World} (h : w.Entries) (c : CloseId) :
    (w.drainTimeout c).drainResolvers = w.drainResolvers := by
  refine List.filter_eq_self.mpr ?_
  intro r hr
  simp only [ne_eq, decide_eq_true_eq]
  rintro rfl
  exact h.inner c hr

theorem closers_drainTimeout (w : World) (c c' : CloseId) : (w.drainTimeout c).closers c' =
    if c' = c then { w.closers c with timer := none, timedOut := true, drained := true }
    else w.closers c' := by
  simp only [drainTimeout, removeDrainResolver, updateCloser, Function.update_apply]

theorem Entries.drainTimeout {w : World} (h : w.Entries) (c : CloseId) :
    (w.drainTimeout c).Entries := by
  have hd := drainResolvers_drainTimeout h c
  refine ⟨hd ▸ h.nodup, hd ▸ h.inner, hd ▸ h.known, ?_, ?_, fun hz => hd.trans (h.idle hz)⟩
  · intro c' hlt hw
    rw [closers_drainTimeout] at hw
    split_ifs at hw with hcc
    · simp [Closer.waits] at hw
    · exact hd ▸ h.waiting c' hlt hw
  · intro c' hlt ht
    rw [closers_drainTimeout] at ht ⊢
    split_ifs at ht ⊢ with hcc
    · cases ht
    · exact h.armed c' hlt ht

/-- The timer leaves the entry of the call it settles. -/
theorem not_fresh_drainTimeout {w : World} (h : w.Entries) {c : CloseId} (hlt : c < w.nextCloser)
    (harmed : (w.closers c).timer.isSome) : ¬ (w.drainTimeout c).Fresh := by
  intro hf
  have hmem : .resolver c ∈ (w.drainTimeout c).drainResolvers := by
    rw [drainResolvers_drainTimeout h c]
    exact h.waiting c hlt (h.armed c hlt harmed)
  have hwaits := hf c hmem
  rw [closers_drainTimeout, if_pos rfl] at hwaits
  simp [Closer.waits] at hwaits

theorem Entries.step_cases {w w' : World} {e : Event} (h : w.Entries) (hc : w.Counted)
    (hs : machine.Step w e w') :
    w'.Entries ∧ (e.isDrainTimeout = false → w.Fresh → w'.Fresh) ∧
      (e.isDrainTimeout = true → ¬ w'.Fresh) := by
  have hquiet : ∀ {v : World}, e.isDrainTimeout = false → SameWaiters w v →
      v.activeRequests = w.activeRequests → v.Entries ∧
        (e.isDrainTimeout = false → w.Fresh → v.Fresh) ∧ (e.isDrainTimeout = true → ¬ v.Fresh) := by
    intro v he hsame ha
    refine ⟨h.same hsame fun hz => ha ▸ hz, fun _ hf => hf.same hsame, fun ht => ?_⟩
    rw [he] at ht
    cases ht
  cases answer_of_step hs with
  | @turn e k v hsocket hlt hrun =>
    have hno : e.isDrainTimeout = false := by cases e <;> first | rfl | cases hsocket
    obtain ⟨hentries, hfresh⟩ := h.micros hc hlt hrun
    refine ⟨hentries, fun _ => hfresh, fun ht => ?_⟩
    rw [hno] at ht
    cases ht
  | close o =>
    obtain ⟨hentries, hfresh⟩ := h.close o
    exact ⟨hentries, fun _ => hfresh, fun ht => by cases ht⟩
  | @drainTimeout c hlt harmed =>
    refine ⟨Entries.drainTimeout h c, ?_, fun _ => not_fresh_drainTimeout h hlt harmed⟩
    intro ht
    cases ht
  | @resumeDrain c hlt hph hdr =>
    refine hquiet rfl ?_ rfl
    have hsame : SameWaiters w w.closeConnections := sameWaiters_of_eq rfl rfl rfl
    refine hsame.trans (sameWaiters_updateCloser _ ?_ rfl)
    change Closer.waits { w.closers c with phase := .closing } = (w.closers c).waits
    rw [waits_of_phase (by simp), Closer.waits, hdr, Bool.not_true, Bool.and_false]
  | @closeCallback c n =>
    have hsame : SameWaiters w (w.updateCloser c fun x =>
        { x with closed := some (closeResult (w.closers c)) }) :=
      sameWaiters_updateCloser w rfl rfl
    exact hquiet rfl (hsame.trans (sameWaiters_of_eq rfl rfl rfl)) rfl
  | @resumeClose c hlt hph hcl =>
    obtain ⟨result, -, he⟩ := resumeClose_cases hcl
    have hsame : SameWaiters w
        (w.updateCloser c fun x => { x with phase := .finished result }) := by
      refine sameWaiters_updateCloser w ?_ rfl
      rw [waits_of_phase (by simp), waits_of_phase (by simp [hph])]
    rw [he]
    exact hquiet rfl (hsame.trans (sameWaiters_of_eq rfl rfl rfl)) rfl
  | _ => exact hquiet rfl (sameWaiters_of_eq rfl rfl rfl) rfl

/-- The state of a server as far as its waiting calls go. -/
def Waiting (w : World) : Prop := w.Entries ∧ w.Counted

theorem waiting_init (serializer : Serializer) : (World.init serializer).Waiting :=
  ⟨entries_init serializer, counted_init serializer⟩

theorem Waiting.step {w w' : World} {e : Event} (h : w.Waiting) (hs : machine.Step w e w') :
    w'.Waiting := ⟨(h.1.step_cases h.2 hs).1, h.2.step hs⟩

theorem Waiting.registered_step_iff {w w' : World} {e : Event} (h : w.Waiting)
    (hr : WaitersRegistered w) (hs : machine.Step w e w') :
    WaitersRegistered w' ↔ e.isDrainTimeout = false := by
  obtain ⟨hentries, hcounted⟩ := h
  obtain ⟨hentries', hkept, hstale⟩ := hentries.step_cases hcounted hs
  rw [hentries'.registered_iff (hcounted.step hs)]
  constructor
  · intro hf
    exact Bool.not_eq_true _ ▸ fun ht => hstale ht hf
  · intro hno
    exact hkept hno ((hentries.registered_iff hcounted).1 hr)

end World

/-- In every run a waiting call has one entry and the entries wait for a request; the entries
are those of the waiting calls all along exactly when no drain timer fires. -/
theorem waiters_registered_iff (serializer : Serializer) (es : List Event) (w : World)
    (h : machine.Run (World.init serializer) es w) :
    (∀ c < w.nextCloser, (w.closers c).waits = true → w.drainResolvers.count (.resolver c) = 1) ∧
      (w.drainResolvers ≠ [] → 0 < w.activeRequests) ∧
      (machine.Always WaitersRegistered (World.init serializer) es ↔
        ∀ e ∈ es, e.isDrainTimeout = false) := by
  have hinit := World.waiting_init serializer
  have hfirst : WaitersRegistered (World.init serializer) :=
    (hinit.1.registered_iff hinit.2).2 (World.fresh_init serializer)
  have hlast : w.Waiting := h.invariant (fun _ _ _ hi hs => hi.step hs) hinit
  refine ⟨?_, hlast.1.active hlast.2, ?_⟩
  · intro c hlt hwaits
    exact List.count_eq_one_of_mem hlast.1.nodup (hlast.1.waiting c hlt hwaits)
  · rw [h.always_iff (C := fun _ e => e.isDrainTimeout = false) (fun _ _ _ hi hs => hi.step hs)
      (fun _ _ _ hi hr hs => hi.registered_step_iff hr hs) hinit hfirst]
    exact ⟨fun hrun => hrun.mem_of_guard, fun hall => h.guard_of_mem hall⟩

/-- A graceful close waits for one request. -/
def sampleWaiting : List Event :=
  [.registerService "s" ⟨[("m", true)], []⟩, .listen sampleServerOptions, .listening 0,
    .connection 0, .data 0 (samplePacket sampleRequest) 0, .close ⟨true, none⟩]

/-- The request ends, and the server listens again. -/
def sampleRelistened : List Event :=
  sampleWaiting ++ [.settle 0 0 (.ok (.number (.ofNat 7))) 1, .wrote 0 0 (.ok ()) 2,
    .resumeDrain 0, .listen sampleServerOptions, .listening 1]

def sampleRelistening : Option World :=
  machine.exec (World.init (.ofTable sampleTable)) sampleRelistened

theorem sampleRelistening_isSome : sampleRelistening.isSome := by decide +kernel

theorem waiters_registered_sample :
    machine.Always WaitersRegistered (World.init (.ofTable sampleTable)) sampleRelistened :=
  (waiters_registered_iff _ _ _ (Machine.run_exec_get sampleRelistening_isSome)).2.2.2
    (by decide +kernel)

def sampleTimedOut : Option World :=
  machine.exec (World.init (.ofTable sampleTable)) (sampleWaiting ++ [.drainTimeout 0])

theorem sampleTimedOut_isSome : sampleTimedOut.isSome := by decide +kernel

/-- The entry of a call that its timer has settled stays. -/
theorem settled_waiter_registered : ¬ ∀ (serializer : Serializer) (w : World),
    machine.Reachable (World.init serializer) w → WaitersRegistered w := by
  intro h
  have hr := h _ (sampleTimedOut.get sampleTimedOut_isSome)
    ⟨_, Machine.run_exec_get sampleTimedOut_isSome⟩
  have hentry := hr.entry 0
  have hcount :
      (sampleTimedOut.get sampleTimedOut_isSome).drainResolvers.count (.resolver 0) = 1 := by
    decide +kernel
  have hsettled : ((sampleTimedOut.get sampleTimedOut_isSome).closers 0).waits = false := by
    decide +kernel
  rw [hcount, hsettled] at hentry
  simp at hentry

end WeisleyRpc.Server
