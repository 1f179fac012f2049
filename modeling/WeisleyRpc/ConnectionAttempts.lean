import WeisleyRpc.ConnectionOps

/-!
# The connect attempt in flight

At most one `doConnect` is suspended, its socket is the current one, and the queued
continuation says how far it has come. A continuation that carries a failure finds
the current socket not connected or destroyed.
-/

namespace WeisleyRpc.Client

/-- The continuations of `doConnect` itself and of the `connect` that started it. -/
def Microtask.isProgress : Microtask → Bool
  | .resumeDoConnect _ _ | .resumeConnect _ _ => true
  | .resumeJoined _ _ | .resumeCaller _ _ => false

def Microtask.result : Microtask → Result
  | .resumeDoConnect _ r | .resumeConnect _ r | .resumeJoined _ r | .resumeCaller _ r => r

def Microtask.Failed (task : Microtask) : Prop := ∃ e, task.result = .error e

namespace World

def progress (w : World) : List Microtask := w.microtasks.filter Microtask.isProgress

/-- The continuation that is queued, given how far the attempt in flight has come. -/
def Expected (w : World) (tasks : List Microtask) : Prop :=
  match w.connectionPromise with
  | none => tasks = []
  | some s =>
    match (w.sockets s).attempt with
    | .awaiting => tasks = []
    | .resuming => ∃ r, tasks = [.resumeDoConnect s r]
    | .settled r => tasks = [.resumeConnect (w.sockets s).starter r]

structure AttemptWf (w : World) : Prop where
  latest : ∀ s, w.socket = some s → s + 1 = w.nextSocket
  promise : ∀ s, w.connectionPromise = some s → w.socket = some s
  idle : ∀ s, s < w.nextSocket → w.connectionPromise ≠ some s →
    ∃ r, (w.sockets s).attempt = .settled r
  expected : w.Expected w.progress

/-- What a queued or returned result says about its socket. -/
structure ResultWf (w : World) : Prop where
  connected : ∀ s, Microtask.resumeDoConnect s (.ok ()) ∈ w.microtasks →
    (w.sockets s).connected = true
  destroyed : ∀ s e, Microtask.resumeDoConnect s (.error e) ∈ w.microtasks →
    (w.sockets s).destroyed = true
  settled_ok : ∀ s, s < w.nextSocket → (w.sockets s).attempt = .settled (.ok ()) →
    (w.sockets s).connected = true
  settled_error : ∀ s e, s < w.nextSocket → (w.sockets s).attempt = .settled (.error e) →
    (w.sockets s).destroyed = true
  failed : ∀ task ∈ w.microtasks, task.Failed → ∀ s, w.socket = some s →
    (w.sockets s).connected = false ∨ (w.sockets s).destroyed = true

theorem attemptWf_init (codec : RpcCodec) : (World.init codec).AttemptWf := by
  refine ⟨by simp [World.init], by simp [World.init], by simp [World.init], ?_⟩
  simp [World.init, Expected, progress]

theorem resultWf_init (codec : RpcCodec) : (World.init codec).ResultWf := by
  constructor <;> simp [World.init]

/-- Two states that agree on sockets and suspended functions. -/
structure SameAttempts (w v : World) : Prop where
  sockets : v.sockets = w.sockets
  nextSocket : v.nextSocket = w.nextSocket
  socket : v.socket = w.socket
  connectionPromise : v.connectionPromise = w.connectionPromise
  microtasks : v.microtasks = w.microtasks

theorem SameSockets.attempts {w v : World} (h : SameSockets w v) : SameAttempts w v :=
  ⟨h.sockets, h.nextSocket, h.socket, h.connectionPromise, h.microtasks⟩

theorem AttemptWf.same {w v : World} (h : w.AttemptWf) (hs : SameAttempts w v) : v.AttemptWf := by
  obtain ⟨h₁, h₂, h₃, h₄⟩ := h
  refine ⟨?_, ?_, ?_, ?_⟩
  · rwa [hs.socket, hs.nextSocket]
  · rwa [hs.connectionPromise, hs.socket]
  · rwa [hs.nextSocket, hs.connectionPromise, hs.sockets]
  · unfold Expected progress at *
    rwa [hs.connectionPromise, hs.sockets, hs.microtasks]

theorem ResultWf.same {w v : World} (h : w.ResultWf) (hs : SameAttempts w v) : v.ResultWf := by
  obtain ⟨h₁, h₂, h₃, h₄, h₅⟩ := h
  refine ⟨?_, ?_, ?_, ?_, ?_⟩
  · rwa [hs.microtasks, hs.sockets]
  · rwa [hs.microtasks, hs.sockets]
  · rwa [hs.nextSocket, hs.sockets]
  · rwa [hs.nextSocket, hs.sockets]
  · rwa [hs.microtasks, hs.socket, hs.sockets]

theorem AttemptWf.updateSocket {w : World} (h : w.AttemptWf) (s : SocketId) {f : Socket → Socket}
    (ha : ∀ k, (f k).attempt = k.attempt) (hs : ∀ k, (f k).starter = k.starter) :
    (w.updateSocket s f).AttemptWf := by
  have ha' := fun s' => w.updateSocket_field s s' Socket.attempt ha
  have hs' := fun s' => w.updateSocket_field s s' Socket.starter hs
  refine ⟨h.latest, h.promise, fun s' hlt hne => ?_, ?_⟩
  · rw [ha']
    exact h.idle s' hlt hne
  · have he := h.expected
    unfold Expected at he ⊢
    simp only [ha', hs']
    exact he

/-- Flags of a socket only go from false to true; a socket that connects has no failure
queued. -/
theorem ResultWf.updateSocket {w : World} (h : w.ResultWf) (s : SocketId) {f : Socket → Socket}
    (ha : ∀ k, (f k).attempt = k.attempt)
    (hc : ∀ k, k.connected = true → (f k).connected = true)
    (hd : ∀ k, k.destroyed = true → (f k).destroyed = true)
    (hn : (∀ k, (f k).connected = k.connected) ∨ w.microtasks = []) :
    (w.updateSocket s f).ResultWf := by
  have ha' := fun s' => w.updateSocket_field s s' Socket.attempt ha
  have hc' : ∀ s', (w.sockets s').connected = true →
      ((w.updateSocket s f).sockets s').connected = true := by
    intro s' hcon
    rw [sockets_updateSocket]
    split_ifs with hss
    · exact hc _ (hss ▸ hcon)
    · exact hcon
  have hd' : ∀ s', (w.sockets s').destroyed = true →
      ((w.updateSocket s f).sockets s').destroyed = true := by
    intro s' hdes
    rw [sockets_updateSocket]
    split_ifs with hss
    · exact hd _ (hss ▸ hdes)
    · exact hdes
  refine ⟨fun s' hm => hc' s' (h.connected s' hm), fun s' e hm => hd' s' (h.destroyed s' e hm),
    fun s' hlt hat => hc' s' (h.settled_ok s' hlt (by rwa [ha'] at hat)),
    fun s' e hlt hat => hd' s' (h.settled_error s' e hlt (by rwa [ha'] at hat)),
    fun task hm hf s' hs' => ?_⟩
  rcases hn with hn | hn
  · rcases h.failed task hm hf s' hs' with hcf | hdt
    · exact Or.inl (by rw [w.updateSocket_field s s' Socket.connected hn, hcf])
    · exact Or.inr (hd' s' hdt)
  · have hm' : task ∈ w.microtasks := hm
    rw [hn] at hm'
    cases hm'

/-- Continuations of callers may be queued at any time. -/
theorem AttemptWf.enqueue {w : World} (h : w.AttemptWf) {tasks : List Microtask}
    (ht : ∀ task ∈ tasks, task.isProgress = false) : (w.enqueue tasks).AttemptWf := by
  refine ⟨h.latest, h.promise, h.idle, ?_⟩
  have hp : (w.enqueue tasks).progress = w.progress := by
    have : tasks.filter Microtask.isProgress = [] := by
      rw [List.filter_eq_nil_iff]
      exact fun task hm => by simp [ht task hm]
    simp only [progress, World.enqueue, List.filter_append, this, List.append_nil]
  rw [hp]
  exact h.expected

theorem ResultWf.enqueue {w : World} (h : w.ResultWf) {tasks : List Microtask}
    (ht : ∀ task ∈ tasks, task.isProgress = false)
    (hf : ∀ task ∈ tasks, task.Failed → ∀ s, w.socket = some s →
      (w.sockets s).connected = false ∨ (w.sockets s).destroyed = true) :
    (w.enqueue tasks).ResultWf := by
  have hno : ∀ s r, Microtask.resumeDoConnect s r ∈ w.microtasks ++ tasks →
      Microtask.resumeDoConnect s r ∈ w.microtasks := by
    intro s r hm
    rcases List.mem_append.mp hm with hm | hm
    · exact hm
    · cases ht _ hm
  refine ⟨fun s hm => h.connected s (hno s _ hm), fun s e hm => h.destroyed s e (hno s _ hm),
    h.settled_ok, h.settled_error, fun task hm => ?_⟩
  rcases List.mem_append.mp hm with hm | hm
  · exact h.failed task hm
  · exact hf task hm

/-- The attempt of socket `s` is in flight exactly while its promise is the pending one. -/
theorem AttemptWf.promise_of_not_settled {w : World} (h : w.AttemptWf) {s : SocketId}
    (hlt : s < w.nextSocket) (hn : ∀ r, (w.sockets s).attempt ≠ .settled r) :
    w.connectionPromise = some s := by
  by_contra hne
  obtain ⟨r, hr⟩ := h.idle s hlt hne
  exact hn r hr

theorem AttemptWf.progress_of_awaiting {w : World} (h : w.AttemptWf) {s : SocketId}
    (hp : w.connectionPromise = some s) (ha : (w.sockets s).attempt = .awaiting) :
    w.progress = [] := by
  have he := h.expected
  simpa [Expected, hp, ha] using he

theorem AttemptWf.resumeAttempt {w : World} (h : w.AttemptWf) {s : SocketId}
    (hlt : s < w.nextSocket) (result : Result) : (w.resumeAttempt s result).AttemptWf := by
  rcases resumeAttempt_cases w s result with ⟨ha, he⟩ | ⟨-, he⟩ <;> rw [he]
  · have hp := h.promise_of_not_settled hlt (by simp [ha])
    have hq : w.microtasks.filter Microtask.isProgress = [] := h.progress_of_awaiting hp ha
    refine ⟨h.latest, h.promise, fun s' hlt' hne => ?_, ?_⟩
    · have hss : s' ≠ s := fun hss => hne (by simp [hp, hss])
      simpa [sockets_updateSocket, hss] using h.idle s' hlt' hne
    · simp only [Expected, progress, connectionPromise_enqueue, connectionPromise_updateSocket, hp,
        sockets_enqueue, sockets_updateSocket, if_true, microtasks_enqueue,
        microtasks_updateSocket, List.filter_append, hq]
      exact ⟨result, rfl⟩
  · exact h

theorem ResultWf.resumeAttempt {w : World} (h : w.ResultWf) (ha : w.AttemptWf) {s : SocketId}
    (hlt : s < w.nextSocket) {result : Result}
    (hok : result = .ok () → (w.sockets s).connected = true)
    (herr : ∀ e, result = .error e → (w.sockets s).destroyed = true) :
    (w.resumeAttempt s result).ResultWf := by
  rcases resumeAttempt_cases w s result with ⟨hat, he⟩ | ⟨-, he⟩ <;> rw [he]
  · have hcur := ha.promise s (ha.promise_of_not_settled hlt (by simp [hat]))
    have hc := fun s' => w.updateSocket_field s (f := fun k => { k with attempt := .resuming }) s'
      Socket.connected fun _ => rfl
    have hd := fun s' => w.updateSocket_field s (f := fun k => { k with attempt := .resuming }) s'
      Socket.destroyed fun _ => rfl
    refine ⟨fun s' hm => ?_, fun s' e hm => ?_, fun s' hlt' hat' => ?_, fun s' e hlt' hat' => ?_,
      fun task hm hf s' hs' => ?_⟩
    · rw [sockets_enqueue, hc]
      rcases List.mem_append.mp hm with hm | hm
      · exact h.connected s' hm
      · obtain ⟨rfl, hr⟩ := by simpa using hm
        exact hok hr.symm
    · rw [sockets_enqueue, hd]
      rcases List.mem_append.mp hm with hm | hm
      · exact h.destroyed s' e hm
      · obtain ⟨rfl, hr⟩ := by simpa using hm
        exact herr e hr.symm
    · rw [sockets_enqueue, sockets_updateSocket] at hat'
      rw [sockets_enqueue, hc]
      split_ifs at hat'
      exact h.settled_ok s' hlt' hat'
    · rw [sockets_enqueue, sockets_updateSocket] at hat'
      rw [sockets_enqueue, hd]
      split_ifs at hat'
      exact h.settled_error s' e hlt' hat'
    · rw [sockets_enqueue, hc, hd]
      rcases List.mem_append.mp hm with hm | hm
      · exact h.failed task hm hf s' hs'
      · obtain rfl := List.mem_singleton.mp hm
        obtain ⟨e, hre⟩ := hf
        rw [Option.some.inj (hs'.symm.trans hcur)]
        exact Or.inr (herr e hre)
  · exact h

/-- What is known when the continuation of `doConnect` runs. -/
theorem AttemptWf.of_resumeDoConnect {w : World} (h : w.AttemptWf) {s : SocketId} {r : Result}
    {tasks : List Microtask} (hm : w.microtasks = .resumeDoConnect s r :: tasks) :
    w.connectionPromise = some s ∧ (w.sockets s).attempt = .resuming ∧
      tasks.filter Microtask.isProgress = [] := by
  have he := h.expected
  have hp : w.progress = .resumeDoConnect s r :: tasks.filter Microtask.isProgress := by
    rw [progress, hm]
    rfl
  rw [hp] at he
  unfold Expected at he
  cases hc : w.connectionPromise with
  | none => simp [hc] at he
  | some s' =>
    simp only [hc] at he
    cases ha : (w.sockets s').attempt with
    | awaiting => simp [ha] at he
    | resuming =>
      simp only [ha, List.cons.injEq, Microtask.resumeDoConnect.injEq] at he
      obtain ⟨r', ⟨rfl, rfl⟩, ht⟩ := he
      exact ⟨rfl, ha, ht⟩
    | settled r' => simp [ha] at he

/-- What is known when the starter's `finally` runs. -/
theorem AttemptWf.of_resumeConnect {w : World} (h : w.AttemptWf) {caller : Caller} {r : Result}
    {tasks : List Microtask} (hm : w.microtasks = .resumeConnect caller r :: tasks) :
    ∃ s, w.connectionPromise = some s ∧ (w.sockets s).attempt = .settled r ∧
      (w.sockets s).starter = caller ∧ tasks.filter Microtask.isProgress = [] := by
  have he := h.expected
  have hp : w.progress = .resumeConnect caller r :: tasks.filter Microtask.isProgress := by
    rw [progress, hm]
    rfl
  rw [hp] at he
  unfold Expected at he
  cases hc : w.connectionPromise with
  | none => simp [hc] at he
  | some s =>
    simp only [hc] at he
    cases ha : (w.sockets s).attempt with
    | awaiting => simp [ha] at he
    | resuming => simp [ha] at he
    | settled r' =>
      simp only [ha, List.cons.injEq, Microtask.resumeConnect.injEq] at he
      obtain ⟨⟨rfl, rfl⟩, ht⟩ := he
      exact ⟨s, rfl, ha, rfl, ht⟩

/-- A continuation of a caller is removed from the queue. -/
theorem AttemptWf.pop {w : World} (h : w.AttemptWf) {task : Microtask} {tasks : List Microtask}
    (hm : w.microtasks = task :: tasks) (ht : task.isProgress = false) :
    { w with microtasks := tasks }.AttemptWf := by
  refine ⟨h.latest, h.promise, h.idle, ?_⟩
  have hp : { w with microtasks := tasks }.progress = w.progress := by
    simp only [progress, hm, List.filter_cons, ht, Bool.false_eq_true, if_false]
  rw [hp]
  exact h.expected

theorem ResultWf.pop {w : World} (h : w.ResultWf) {task : Microtask} {tasks : List Microtask}
    (hm : w.microtasks = task :: tasks) : { w with microtasks := tasks }.ResultWf := by
  have hmem : ∀ {t}, t ∈ tasks → t ∈ w.microtasks := fun ht => by simp [hm, ht]
  exact ⟨fun s ht => h.connected s (hmem ht), fun s e ht => h.destroyed s e (hmem ht),
    h.settled_ok, h.settled_error, fun t ht => h.failed t (hmem ht)⟩

theorem AttemptWf.settleAttempt {w v : World} (h : w.AttemptWf) {s : SocketId} {r : Result}
    {tasks : List Microtask} (hm : w.microtasks = .resumeDoConnect s r :: tasks)
    (hv : SameAttempts { w with microtasks := tasks } v) : (v.settleAttempt s r).AttemptWf := by
  obtain ⟨hp, -, ht⟩ := h.of_resumeDoConnect hm
  have hvp : v.connectionPromise = some s := hv.connectionPromise.trans hp
  have hvs : v.sockets = w.sockets := hv.sockets
  refine ⟨fun s' hs' => ?_, fun s' hs' => ?_, fun s' hlt hne => ?_, ?_⟩
  · exact (h.latest s' (hv.socket ▸ hs')).trans hv.nextSocket.symm
  · exact hv.socket.trans (h.promise s' (hv.connectionPromise ▸ hs'))
  · simp only [World.settleAttempt, sockets_enqueue, sockets_updateSocket]
    split_ifs with hss
    · exact ⟨r, rfl⟩
    · rw [hvs]
      exact h.idle s' (hv.nextSocket ▸ hlt) (hv.connectionPromise ▸ hne)
  · have hj : ((v.sockets s).joined.map fun c => Microtask.resumeJoined c r).filter
        Microtask.isProgress = [] := by
      simp [List.filter_eq_nil_iff, Microtask.isProgress]
    have hvm : v.microtasks.filter Microtask.isProgress = [] := by
      rw [hv.microtasks]
      exact ht
    simp only [Expected, progress, World.settleAttempt, connectionPromise_enqueue,
      connectionPromise_updateSocket, hvp, sockets_enqueue, sockets_updateSocket, if_true,
      microtasks_enqueue, microtasks_updateSocket, List.filter_append, hvm, List.nil_append,
      List.filter_cons, Microtask.isProgress, hj]

theorem ResultWf.settleAttempt {w v : World} (h : w.ResultWf) (ha : w.AttemptWf) {s : SocketId}
    {r : Result} {tasks : List Microtask} (hm : w.microtasks = .resumeDoConnect s r :: tasks)
    (hv : SameAttempts { w with microtasks := tasks } v) : (v.settleAttempt s r).ResultWf := by
  obtain ⟨hp, -, -⟩ := ha.of_resumeDoConnect hm
  have hcur := ha.promise s hp
  have hvr : v.ResultWf := ResultWf.same (h.pop hm) hv
  have hok : r = .ok () → (v.sockets s).connected = true := by
    rintro rfl
    rw [hv.sockets]
    exact h.connected s (by simp [hm])
  have herr : ∀ e, r = .error e → (v.sockets s).destroyed = true := by
    rintro e rfl
    rw [hv.sockets]
    exact h.destroyed s e (by simp [hm])
  have hc := fun s' => v.updateSocket_field s (f := fun k => { k with attempt := .settled r }) s'
    Socket.connected fun _ => rfl
  have hd := fun s' => v.updateSocket_field s (f := fun k => { k with attempt := .settled r }) s'
    Socket.destroyed fun _ => rfl
  have hno : ∀ s' r', Microtask.resumeDoConnect s' r' ∈ (v.settleAttempt s r).microtasks →
      Microtask.resumeDoConnect s' r' ∈ v.microtasks := by
    intro s' r' ht
    simpa [World.settleAttempt] using ht
  refine ⟨fun s' ht => ?_, fun s' e ht => ?_, fun s' hlt hat => ?_, fun s' e hlt hat => ?_,
    fun task ht hf s' hs' => ?_⟩ <;>
    simp only [World.settleAttempt, sockets_enqueue, hc, hd]
  · exact hvr.connected s' (hno s' _ ht)
  · exact hvr.destroyed s' e (hno s' _ ht)
  · simp only [World.settleAttempt, sockets_enqueue, sockets_updateSocket] at hat
    split_ifs at hat with hss
    · rw [hss]
      exact hok (Attempt.settled.inj hat)
    · exact hvr.settled_ok s' hlt hat
  · simp only [World.settleAttempt, sockets_enqueue, sockets_updateSocket] at hat
    split_ifs at hat with hss
    · rw [hss]
      exact herr e (Attempt.settled.inj hat)
    · exact hvr.settled_error s' e hlt hat
  · rcases List.mem_append.mp ht with ht | ht
    · exact hvr.failed task ht hf s' hs'
    · obtain ⟨e, hre⟩ := hf
      have hr : r = .error e := by
        rcases List.mem_cons.mp ht with rfl | ht
        · exact hre
        · obtain ⟨c, -, rfl⟩ := List.mem_map.mp ht
          exact hre
      have hss : s' = s := Option.some.inj (hs'.symm.trans (hv.socket.trans hcur))
      rw [hss]
      exact Or.inr (herr e hr)

theorem AttemptWf.connect {w : World} (h : w.AttemptWf) (caller : Caller) :
    (w.connect caller).AttemptWf := by
  rcases connect_cases w caller with ⟨-, -, he⟩ | ⟨-, ⟨s, hp, he⟩ | ⟨hp, he⟩⟩ <;> rw [he]
  · exact h.enqueue (by simp [Microtask.isProgress])
  · rcases join_cases w s caller with ⟨result, -, hj⟩ | ⟨-, hj⟩ <;> rw [hj]
    · exact h.enqueue (by simp [Microtask.isProgress])
    · exact h.updateSocket s (fun _ => rfl) fun _ => rfl
  · have hq : w.progress = [] := by
      have he := h.expected
      simpa [Expected, hp] using he
    refine ⟨fun s hs => ?_, fun s hs => hs, fun s hlt hne => ?_, ?_⟩
    · rw [← Option.some.inj hs]
      rfl
    · have hne' : s ≠ w.nextSocket := fun hss => hne (by rw [hss])
      have hlt' : s < w.nextSocket := Nat.lt_of_le_of_ne (Nat.le_of_lt_succ hlt) hne'
      simpa [doConnect, Function.update_apply, hne'] using h.idle s hlt' (by simp [hp])
    · simpa [Expected, doConnect, Socket.new, progress] using hq

theorem ResultWf.connect {w : World} (h : w.ResultWf) (ha : w.AttemptWf) (caller : Caller) :
    (w.connect caller).ResultWf := by
  rcases connect_cases w caller with ⟨-, -, he⟩ | ⟨-, ⟨s, hp, he⟩ | ⟨hp, he⟩⟩ <;> rw [he]
  · exact h.enqueue (by simp [Microtask.isProgress]) (by simp [Microtask.Failed, Microtask.result])
  · have hcur := ha.promise s hp
    have hlt : s < w.nextSocket := by rw [← ha.latest s hcur]; exact Nat.lt_succ_self s
    rcases join_cases w s caller with ⟨result, hat, hj⟩ | ⟨-, hj⟩ <;> rw [hj]
    · refine h.enqueue (by simp [Microtask.isProgress]) fun task ht hf s' hs' => ?_
      obtain rfl := List.mem_singleton.mp ht
      obtain ⟨e, hre⟩ := hf
      rw [Option.some.inj (hs'.symm.trans hcur)]
      have hr : result = .error e := hre
      exact Or.inr (h.settled_error s e hlt (hr ▸ hat))
    · exact h.updateSocket s (fun _ => rfl) (fun _ hc => hc) (fun _ hd => hd) (Or.inl fun _ => rfl)
  · have hq : w.progress = [] := by
      have he := ha.expected
      simpa [Expected, hp] using he
    have hno : ∀ s r, Microtask.resumeDoConnect s r ∉ w.microtasks := by
      intro s r hm
      have : Microtask.resumeDoConnect s r ∈ w.progress := List.mem_filter.mpr ⟨hm, rfl⟩
      rw [hq] at this
      cases this
    refine ⟨fun s hm => absurd hm (hno s _), fun s e hm => absurd hm (hno s _),
      fun s hlt hat => ?_, fun s e hlt hat => ?_, fun task hm hf s hs => ?_⟩
    · simp only [doConnect, Function.update_apply] at hat ⊢
      split_ifs at hat ⊢ with hss
      · cases hat
      · exact h.settled_ok s (Nat.lt_of_le_of_ne (Nat.le_of_lt_succ hlt) hss) hat
    · simp only [doConnect, Function.update_apply] at hat ⊢
      split_ifs at hat ⊢ with hss
      · cases hat
      · exact h.settled_error s e (Nat.lt_of_le_of_ne (Nat.le_of_lt_succ hlt) hss) hat
    · rw [← Option.some.inj hs]
      simp [doConnect, Socket.new]

/-- Both invariants of the connect attempt. -/
def ConnectWf (w : World) : Prop := w.AttemptWf ∧ w.ResultWf

theorem ConnectWf.same {w v : World} (h : w.ConnectWf) (hs : SameAttempts w v) : v.ConnectWf :=
  ⟨h.1.same hs, h.2.same hs⟩

theorem ConnectWf.flag {w : World} (h : w.ConnectWf) (s : SocketId) {f : Socket → Socket}
    (ha : ∀ k, (f k).attempt = k.attempt) (hs : ∀ k, (f k).starter = k.starter)
    (hc : ∀ k, (f k).connected = k.connected)
    (hd : ∀ k, k.destroyed = true → (f k).destroyed = true) : (w.updateSocket s f).ConnectWf :=
  ⟨h.1.updateSocket s ha hs,
    h.2.updateSocket s ha (fun k hk => (hc k).trans hk) hd (Or.inl hc)⟩

theorem ConnectWf.write {w : World} (h : w.ConnectWf) (s : SocketId) (payload : Buffer) :
    (w.write s payload).ConnectWf := by
  unfold World.write
  split_ifs
  · exact h
  · exact h.flag s (fun _ => rfl) (fun _ => rfl) (fun _ => rfl) fun _ hd => hd

theorem ConnectWf.connect {w : World} (h : w.ConnectWf) (caller : Caller) :
    (w.connect caller).ConnectWf := ⟨h.1.connect caller, h.2.connect h.1 caller⟩

theorem ConnectWf.endSocket {w : World} (h : w.ConnectWf) : w.endSocket.ConnectWf := by
  unfold World.endSocket
  split
  · exact h
  · exact h.flag _ (fun _ => rfl) (fun _ => rfl) (fun _ => rfl) fun _ hd => hd

theorem ConnectWf.close {w : World} (h : w.ConnectWf) : w.close.ConnectWf := by
  rw [close_eq, cancelReconnect_eq]
  exact ConnectWf.endSocket (h.same ⟨rfl, rfl, rfl, rfl, rfl⟩)

theorem ConnectWf.send {w : World} (h : w.ConnectWf) (id : String) (payload : Buffer) :
    (w.send id payload).ConnectWf := by
  rcases send_cases w id payload with ⟨e, he⟩ | ⟨s, -, -, he⟩ <;> rw [he]
  · exact h.same ⟨rfl, rfl, rfl, rfl, rfl⟩
  · have ht : (w.setTimer (.callTimeout id w.nextCall)).ConnectWf :=
      h.same ⟨rfl, rfl, rfl, rfl, rfl⟩
    exact (ht.write s payload).same ⟨rfl, rfl, rfl, rfl, rfl⟩

theorem ConnectWf.runTimer {o : RpcConnectionOptions} {w w' : World} (h : w.ConnectWf)
    {t : TimerId} {now : ℚ} {uuid : String} {task : TimerTask}
    (hr : runTimer o w t now uuid task = .ok w') : w'.ConnectWf := by
  rcases runTimer_cases hr with ⟨id, call, rfl, rfl⟩ | ⟨delay, rfl, hw⟩ | ⟨s, rfl, hb⟩
  · exact h.same ⟨rfl, rfl, rfl, rfl, rfl⟩
  · have hc : { w.clearTimer t with reconnectTimer := none : World }.ConnectWf :=
      h.same ⟨rfl, rfl, rfl, rfl, rfl⟩
    rcases hw with ⟨-, rfl⟩ | ⟨-, rfl⟩
    · exact hc
    · exact hc.connect _
  · rcases heartbeatTick_cases hb with ⟨-, rfl⟩ | ⟨s, -, ⟨-, error, rfl⟩ | ⟨-, packet, -, rfl⟩⟩
    · exact h.same (sameSockets_stopHeartbeat w).attempts
    · exact (h.same (sameSockets_handleUnexpectedDisconnect o w error).attempts).flag s
        (fun _ => rfl) (fun _ => rfl) (fun _ => rfl) fun _ _ => rfl
    · exact h.write s packet

/-- The starter's `finally` forgets the promise. -/
theorem ConnectWf.forget {w : World} (h : w.ConnectWf) {caller : Caller} {result : Result}
    {tasks : List Microtask} (hm : w.microtasks = .resumeConnect caller result :: tasks) :
    { w with microtasks := tasks, connectionPromise := none : World }.ConnectWf := by
  obtain ⟨s, hp, ha, -, ht⟩ := h.1.of_resumeConnect hm
  have hpop := h.2.pop hm
  refine ⟨⟨h.1.latest, by simp, fun s' hlt _ => ?_, by simpa [Expected, progress] using ht⟩,
    ⟨hpop.connected, hpop.destroyed, hpop.settled_ok, hpop.settled_error, hpop.failed⟩⟩
  by_cases hss : w.connectionPromise = some s'
  · obtain rfl := Option.some.inj (hp.symm.trans hss)
    exact ⟨result, ha⟩
  · exact h.1.idle s' hlt hss

theorem ConnectWf.runMicrotask {o : RpcConnectionOptions} {w : World} (h : w.ConnectWf)
    {task : Microtask} {tasks : List Microtask} (hm : w.microtasks = task :: tasks) (now : ℚ) :
    (runMicrotask o { w with microtasks := tasks } now task).ConnectWf := by
  cases task with
  | resumeDoConnect s result =>
    cases result with
    | ok u =>
      have hb := sameSockets_startHeartbeat o { w with
        microtasks := tasks, state := .connected, reconnectAttempts := 0 } now
      have hv : SameAttempts { w with microtasks := tasks } (startHeartbeat o { w with
          microtasks := tasks, state := .connected, reconnectAttempts := 0 } now) :=
        ⟨hb.sockets, hb.nextSocket, hb.socket, hb.connectionPromise, hb.microtasks⟩
      exact ⟨h.1.settleAttempt hm hv, h.2.settleAttempt h.1 hm hv⟩
    | error e =>
      have hv := (SameSockets.refl { w with microtasks := tasks }).attempts
      exact ⟨h.1.settleAttempt hm hv, h.2.settleAttempt h.1 hm hv⟩
  | resumeConnect caller result =>
    have hf := h.forget hm
    refine ⟨hf.1.enqueue (by simp [Microtask.isProgress]),
      hf.2.enqueue (by simp [Microtask.isProgress]) fun task ht hf => ?_⟩
    obtain rfl := List.mem_singleton.mp ht
    exact h.2.failed (.resumeConnect caller result) (by simp [hm]) hf
  | resumeJoined caller result =>
    refine ⟨(h.1.pop hm rfl).enqueue (by simp [Microtask.isProgress]),
      (h.2.pop hm).enqueue (by simp [Microtask.isProgress]) fun task ht hf => ?_⟩
    obtain rfl := List.mem_singleton.mp ht
    exact h.2.failed (.resumeJoined caller result) (by simp [hm]) hf
  | resumeCaller caller result =>
    have hpop : { w with microtasks := tasks : World }.ConnectWf := ⟨h.1.pop hm rfl, h.2.pop hm⟩
    cases caller with
    | user n => exact hpop.same ⟨rfl, rfl, rfl, rfl, rfl⟩
    | reconnectTimer =>
      cases result with
      | ok u => exact hpop.same ⟨rfl, rfl, rfl, rfl, rfl⟩
      | error e =>
        have hr : { w with microtasks := tasks, state := .reconnecting : World }.ConnectWf :=
          hpop.same ⟨rfl, rfl, rfl, rfl, rfl⟩
        exact hr.same (sameSockets_scheduleReconnect o _).attempts

theorem ConnectWf.step {o : RpcConnectionOptions} {w w' : World} {e : Event} (h : w.ConnectWf)
    (hs : (machine o).Step w e w') : w'.ConnectWf := by
  cases answer_of_step hs with
  | connect n => exact h.connect _
  | close => exact h.close
  | send id payload => exact h.send id payload
  | timer _ _ hr => exact h.runTimer hr
  | @socketConnect s hlt _ _ hidle =>
    have hc : (w.updateSocket s fun k => { k with connected := true }).ConnectWf :=
      ⟨h.1.updateSocket s (fun _ => rfl) fun _ => rfl,
        h.2.updateSocket s (fun _ => rfl) (fun _ _ => rfl) (fun _ hd => hd) (Or.inr hidle)⟩
    refine ⟨hc.1.resumeAttempt hlt _, hc.2.resumeAttempt hc.1 hlt (fun _ => ?_) (by simp)⟩
    rw [sockets_updateSocket, if_pos rfl]
  | @socketError s error hlt _ =>
    have hd : (w.updateSocket s fun k => { k with destroyed := true }).ConnectWf :=
      h.flag s (fun _ => rfl) (fun _ => rfl) (fun _ => rfl) fun _ _ => rfl
    have hsame := sameSockets_handleUnexpectedDisconnect o
      (w.updateSocket s fun k => { k with destroyed := true }) error
    have hu := hd.same hsame.attempts
    have hlt' := hsame.nextSocket ▸ hlt
    refine ⟨hu.1.resumeAttempt hlt' _, hu.2.resumeAttempt hu.1 hlt' (by simp) fun _ _ => ?_⟩
    rw [hsame.sockets, sockets_updateSocket, if_pos rfl]
  | @socketDestroyed s =>
    exact h.flag s (fun _ => rfl) (fun _ => rfl) (fun _ => rfl) fun _ _ => rfl
  | @socketClose s =>
    exact (h.flag s (f := fun k => { k with closed := true }) (fun _ => rfl) (fun _ => rfl)
      (fun _ => rfl) fun _ hd => hd).same (sameSockets_handleUnexpectedDisconnect o _ _).attempts
  | @socketData s chunk now _ _ _ _ hd =>
    obtain ⟨messages, -, hsame⟩ := sameSockets_handleData hd
    have hr := h.flag s (f := fun k => { k with
        received := k.received ++ [chunk], handled := k.handled ++ messages }) (fun _ => rfl)
        (fun _ => rfl) (fun _ => rfl) fun _ hd => hd
    obtain ⟨hs, hn, hp, hm, hsocket⟩ := hsame.attempts
    exact hr.same ⟨hs, hn, hp, hm, hsocket⟩
  | microtask hm => exact h.runMicrotask hm _

end World

theorem Reachable.connectWf {o : RpcConnectionOptions} {w : World} (h : Reachable o w) :
    w.ConnectWf := by
  obtain ⟨codec, -, hr⟩ := h
  exact hr.invariant (fun _ _ _ hi hs => hi.step hs)
    ⟨World.attemptWf_init codec, World.resultWf_init codec⟩

end WeisleyRpc.Client
