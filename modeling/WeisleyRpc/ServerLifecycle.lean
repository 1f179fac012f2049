import WeisleyRpc.ServerOps

/-!
# The listening servers and those who close them

While `listen` is called only when nothing of an earlier `listen` or `close` is under
way, one `net.Server` is open at a time, at most one `close` waits, and a closed
`net.Server` has no open socket left.
-/

namespace WeisleyRpc.Server

def Closer.isFinished (x : Closer) : Bool :=
  match x.phase with
  | .finished _ => true
  | .draining | .closing => false

/-- No `listen` runs concurrently with another one or with a `close`. -/
def Exclusive (w : World) : Event → Prop
  | .listen _ =>
    (∀ n < w.nextServer, w.servers n = .failed ∨ w.servers n = .closed) ∧
      ∀ c < w.nextCloser, (w.closers c).isFinished = true
  | .close _ => ∀ n < w.nextServer, w.servers n ≠ .starting
  | _ => True

instance (w : World) (e : Event) : Decidable (Exclusive w e) :=
  match e with
  | .listen _ => inferInstanceAs (Decidable (_ ∧ _))
  | .close _ => inferInstanceAs (Decidable (∀ n < w.nextServer, _))
  | .registerService _ _ | .listening _ | .listenError _ | .connection _ | .data _ _ _ | .peerEnd _
  | .settle _ _ _ _ | .wrote _ _ _ _ | .finished _ | .socketError _ _ | .socketClose _
  | .drainTimeout _ | .resumeDrain _ | .closeCallback _ | .resumeClose _ => isTrue trivial

namespace World

structure ServersWf (w : World) : Prop where
  current : ∀ n < w.nextServer, w.servers n = .starting ∨ w.servers n = .listening →
    w.server = some n
  idle : ∀ n, w.server = some n → n < w.nextServer ∧ w.servers n ≠ .closing ∧
    w.servers n ≠ .closed ∧ ∀ c < w.nextCloser, (w.closers c).isFinished = true
  single : ∀ c < w.nextCloser, ∀ c' < w.nextCloser, (w.closers c).isFinished = false →
    (w.closers c').isFinished = false → c = c'
  closing : ∀ n < w.nextServer, w.servers n = .closing → ∃ c < w.nextCloser,
    (w.closers c).isFinished = false ∧ (w.closers c).server = some n ∧
      (w.closers c).running = true ∧ (w.closers c).closed = none
  socket : ∀ k < w.nextSocket, (w.conns k).server < w.nextServer ∧
    w.servers (w.conns k).server ≠ .starting ∧ w.servers (w.conns k).server ≠ .failed
  gone : ∀ n < w.nextServer, w.servers n = .closed → w.Unconnected n
  closer : ∀ c < w.nextCloser, ∀ n, (w.closers c).server = some n → n < w.nextServer ∧
    ((w.closers c).isFinished = true → (w.closers c).closed.isSome) ∧
    ((w.closers c).closed = some (.ok ()) → w.servers n = .closed)

/-- A step that moves no server and no closer on. -/
structure SameLifecycle (w v : World) : Prop where
  server : v.server = w.server
  servers : v.servers = w.servers
  nextServer : v.nextServer = w.nextServer
  nextCloser : v.nextCloser = w.nextCloser
  nextSocket : v.nextSocket = w.nextSocket
  conn : ∀ k, (v.conns k).server = (w.conns k).server ∧
    ((w.conns k).closed = true → (v.conns k).closed = true)
  closer : ∀ c, (v.closers c).server = (w.closers c).server ∧
    (v.closers c).running = (w.closers c).running ∧ (v.closers c).closed = (w.closers c).closed ∧
    (v.closers c).isFinished = (w.closers c).isFinished

theorem SameLifecycle.refl (w : World) : SameLifecycle w w :=
  ⟨rfl, rfl, rfl, rfl, rfl, fun _ => ⟨rfl, id⟩, fun _ => ⟨rfl, rfl, rfl, rfl⟩⟩

theorem SameLifecycle.trans {u v w : World} (h : SameLifecycle u v) (h' : SameLifecycle v w) :
    SameLifecycle u w := by
  refine ⟨h'.server.trans h.server, h'.servers.trans h.servers, h'.nextServer.trans h.nextServer,
    h'.nextCloser.trans h.nextCloser, h'.nextSocket.trans h.nextSocket, fun k => ?_, fun c => ?_⟩
  · exact ⟨(h'.conn k).1.trans (h.conn k).1, fun hc => (h'.conn k).2 ((h.conn k).2 hc)⟩
  · obtain ⟨h₁, h₂, h₃, h₄⟩ := h.closer c
    obtain ⟨h₁', h₂', h₃', h₄'⟩ := h'.closer c
    exact ⟨h₁'.trans h₁, h₂'.trans h₂, h₃'.trans h₃, h₄'.trans h₄⟩

theorem ServersWf.same {w v : World} (h : w.ServersWf) (hv : SameLifecycle w v) : v.ServersWf := by
  have hfin : ∀ c, (v.closers c).isFinished = (w.closers c).isFinished := fun c => (hv.closer c).2.2.2
  refine ⟨?_, ?_, ?_, ?_, fun k hk => ?_, fun n hn hs k hk hkn => ?_, fun c hc n hn => ?_⟩
  · rw [hv.nextServer, hv.servers, hv.server]
    exact h.current
  · rw [hv.nextServer, hv.servers, hv.server, hv.nextCloser]
    simp only [hfin]
    exact h.idle
  · rw [hv.nextCloser]
    simp only [hfin]
    exact h.single
  · rw [hv.nextServer, hv.servers, hv.nextCloser]
    simp only [hfin, fun c => (hv.closer c).1, fun c => (hv.closer c).2.1,
      fun c => (hv.closer c).2.2.1]
    exact h.closing
  · rw [hv.nextServer, hv.servers, (hv.conn k).1]
    exact h.socket k (hv.nextSocket ▸ hk)
  · rw [hv.nextServer] at hn
    rw [hv.servers] at hs
    exact (hv.conn k).2 (h.gone n hn hs k (hv.nextSocket ▸ hk) ((hv.conn k).1 ▸ hkn))
  · rw [hv.nextServer, hv.servers, hfin, (hv.closer c).2.2.1]
    exact h.closer c (hv.nextCloser ▸ hc) n ((hv.closer c).1 ▸ hn)

theorem sameLifecycle_updateSocket (w : World) (k : SocketId) {f : ServerSocket → ServerSocket}
    (hs : (f (w.conns k)).server = (w.conns k).server)
    (hc : (w.conns k).closed = true → (f (w.conns k)).closed = true) :
    SameLifecycle w (w.updateSocket k f) := by
  refine ⟨rfl, rfl, rfl, rfl, rfl, fun k' => ?_, fun _ => ⟨rfl, rfl, rfl, rfl⟩⟩
  rw [conns_updateSocket]
  split_ifs with hk
  · subst hk
    exact ⟨hs, hc⟩
  · exact ⟨rfl, id⟩

theorem isFinished_congr {x y : Closer} (h : y.phase = x.phase) : y.isFinished = x.isFinished := by
  unfold Closer.isFinished
  rw [h]

theorem wake_closer (rs : List DrainResolver) (closers : CloseId → Closer) (c : CloseId) :
    (wake rs closers c).server = (closers c).server ∧
      (wake rs closers c).running = (closers c).running ∧
      (wake rs closers c).closed = (closers c).closed ∧
      (wake rs closers c).phase = (closers c).phase ∧
      (wake rs closers c).timedOut = (closers c).timedOut := by
  unfold wake
  split_ifs <;> exact ⟨rfl, rfl, rfl, rfl, rfl⟩

theorem sameLifecycle_finishRequest (w : World) (k : SocketId) {f : ServerSocket → ServerSocket}
    (hs : (f (w.conns k)).server = (w.conns k).server)
    (hc : (w.conns k).closed = true → (f (w.conns k)).closed = true) :
    SameLifecycle w (w.finishRequest k f) := by
  have hu := sameLifecycle_updateSocket w k hs hc
  rcases finishRequest_cases w k f with ⟨-, he⟩ | ⟨-, he⟩ <;> rw [he]
  · exact ⟨hu.server, hu.servers, hu.nextServer, hu.nextCloser, hu.nextSocket, hu.conn, hu.closer⟩
  · refine ⟨hu.server, hu.servers, hu.nextServer, hu.nextCloser, hu.nextSocket, hu.conn, fun c => ?_⟩
    obtain ⟨h₁, h₂, h₃, h₄, -⟩ := wake_closer w.drainResolvers w.closers c
    exact ⟨h₁, h₂, h₃, isFinished_congr h₄⟩

theorem sameLifecycle_micro {k : SocketId} {w w' : World} (h : Micro k w w') :
    SameLifecycle w w' := by
  cases h with
  | @start n x m now =>
    have hu := sameLifecycle_updateSocket w k (f := fun s =>
      (s.invoke ⟨n, x.next, m, MethodInvoker.call w.registry m⟩).setPhase n
        (.invoking now (MethodInvoker.call w.registry m))) rfl id
    exact ⟨hu.server, hu.servers, hu.nextServer, hu.nextCloser, hu.nextSocket, hu.conn, hu.closer⟩
  | abort => exact sameLifecycle_finishRequest w k rfl id
  | finish => exact sameLifecycle_finishRequest w k rfl id
  | pong =>
    exact sameLifecycle_updateSocket w k (by simp [ServerSocket.advance])
      (by simp [ServerSocket.advance])
  | refuse =>
    exact sameLifecycle_updateSocket w k (by simp [ServerSocket.setPhase])
      (by simp [ServerSocket.setPhase])
  | respond =>
    exact sameLifecycle_updateSocket w k (by simp [ServerSocket.setPhase])
      (by simp [ServerSocket.setPhase])
  | _ => exact sameLifecycle_updateSocket w k rfl id

theorem sameLifecycle_micros {k : SocketId} {w w' : World} (h : Micros k w w') :
    SameLifecycle w w' :=
  h.invariant (I := SameLifecycle w) (fun _ _ hs hi => hi.trans (sameLifecycle_micro hs)) (.refl w)

theorem serversWf_init (serializer : Serializer) : (World.init serializer).ServersWf := by
  refine ⟨?_, ?_, ?_, ?_, ?_, ?_, ?_⟩ <;> simp [World.init]

theorem ServersWf.listen {w : World} (h : w.ServersWf) (options : RpcServerOptions)
    (hex : Exclusive w (.listen options)) : (w.listen options).ServersWf := by
  obtain ⟨hservers, hclosers⟩ := hex
  have hold : ∀ n, n < w.nextServer →
      Function.update w.servers w.nextServer .starting n = w.servers n := fun n hn => by
    rw [Function.update_apply, if_neg (Nat.ne_of_lt hn)]
  have hnew : ∀ n, n < w.nextServer + 1 →
      n < w.nextServer ∨ (n = w.nextServer ∧
        Function.update w.servers w.nextServer .starting n = .starting) := fun n hn => by
    rcases Nat.lt_or_eq_of_le (Nat.le_of_lt_succ hn) with hlt | rfl
    · exact Or.inl hlt
    · exact Or.inr ⟨rfl, by simp⟩
  refine ⟨fun n hn hs => ?_, fun n hn => ?_, h.single, fun n hn hs => ?_, fun k hk => ?_,
    fun n hn hs => ?_, fun c hc n hn => ?_⟩
  · rcases hnew n hn with hlt | ⟨rfl, -⟩
    · simp only [World.listen, hold n hlt] at hs
      rcases hservers n hlt with he | he <;> simp [he] at hs
    · rfl
  · obtain rfl := Option.some.inj hn
    simp only [World.listen, Function.update_self]
    exact ⟨Nat.lt_succ_self _, (by simp), (by simp), hclosers⟩
  · rcases hnew n hn with hlt | ⟨-, he⟩
    · simp only [World.listen, hold n hlt] at hs
      rcases hservers n hlt with he | he <;> simp [he] at hs
    · cases he.symm.trans hs
  · obtain ⟨hlt, hs⟩ := h.socket k hk
    simp only [World.listen, hold _ hlt]
    exact ⟨Nat.lt_succ_of_lt hlt, hs⟩
  · rcases hnew n hn with hlt | ⟨-, he⟩
    · simp only [World.listen, hold n hlt] at hs
      exact h.gone n hlt hs
    · cases he.symm.trans hs
  · obtain ⟨hlt, hfin, hclosed⟩ := h.closer c hc n hn
    simp only [World.listen, hold n hlt]
    exact ⟨Nat.lt_succ_of_lt hlt, hfin, hclosed⟩

/-- `listen` of the `net.Server` `n` ends, with or without success. -/
theorem ServersWf.started {w : World} (h : w.ServersWf) {n : ServerId} (hlt : n < w.nextServer)
    (hs : w.servers n = .starting) {phase : ServerPhase}
    (hphase : phase = .listening ∨ phase = .failed) (state : RpcServerState) :
    { w with servers := Function.update w.servers n phase, state := state : World }.ServersWf := by
  have hcur := h.current n hlt (Or.inl hs)
  obtain ⟨-, -, -, hfin⟩ := h.idle n hcur
  have hne : ∀ m, w.servers m ≠ .starting → Function.update w.servers n phase m = w.servers m :=
    fun m hm => by
      rw [Function.update_apply, if_neg]
      rintro rfl
      exact hm hs
  have hback : ∀ m q, q ≠ .listening → q ≠ .failed → Function.update w.servers n phase m = q →
      w.servers m = q := by
    intro m q hq hq' hm
    rw [Function.update_apply] at hm
    split_ifs at hm
    · rcases hphase with hp | hp <;> simp [← hm, hp] at hq hq'
    · exact hm
  refine ⟨fun m hm hms => ?_, fun m hm => ?_, h.single, fun m hm hms => ?_, fun k hk => ?_,
    fun m hm hms => h.gone m hm (hback m _ (by simp) (by simp) hms), fun c hc m hm => ?_⟩
  · simp only [Function.update_apply] at hms
    split_ifs at hms with hmn
    · exact hmn ▸ hcur
    · exact h.current m hm hms
  · obtain rfl := Option.some.inj (hcur.symm.trans hm)
    simp only [Function.update_self]
    exact ⟨hlt, by rcases hphase with hp | hp <;> simp [hp],
      by rcases hphase with hp | hp <;> simp [hp], hfin⟩
  · exact h.closing m hm (hback m _ (by simp) (by simp) hms)
  · obtain ⟨hk₁, hk₂, hk₃⟩ := h.socket k hk
    simp only [hne _ hk₂]
    exact ⟨hk₁, hk₂, hk₃⟩
  · obtain ⟨h₁, h₂, h₃⟩ := h.closer c hc m hm
    refine ⟨h₁, h₂, fun hc => ?_⟩
    have hcl := h₃ hc
    simp only [hne m (by simp [hcl]), hcl]

theorem ServersWf.connection {w : World} (h : w.ServersWf) {n : ServerId} {codec : RpcCodec}
    (hlt : n < w.nextServer) (hs : w.servers n = .listening) :
    { w with
      sockets := w.sockets ++ [w.nextSocket]
      conns := Function.update w.conns w.nextSocket (.new n codec)
      nextSocket := w.nextSocket + 1 : World }.ServersWf := by
  have hcases : ∀ k, k < w.nextSocket + 1 →
      (k < w.nextSocket ∧ Function.update w.conns w.nextSocket (.new n codec) k = w.conns k) ∨
        Function.update w.conns w.nextSocket (.new n codec) k = .new n codec := fun k hk => by
    rcases Nat.lt_or_eq_of_le (Nat.le_of_lt_succ hk) with hlt | rfl
    · exact Or.inl ⟨hlt, by rw [Function.update_apply, if_neg (Nat.ne_of_lt hlt)]⟩
    · exact Or.inr (by simp)
  refine ⟨h.current, h.idle, h.single, h.closing, fun k hk => ?_, fun m hm hms k hk hkm => ?_,
    h.closer⟩
  · rcases hcases k hk with ⟨hk', he⟩ | he <;> simp only [he]
    · exact h.socket k hk'
    · exact ⟨hlt, by simp [ServerSocket.new, hs], by simp [ServerSocket.new, hs]⟩
  · rcases hcases k hk with ⟨hk', he⟩ | he <;> simp only [he] at hkm ⊢
    · exact h.gone m hm hms k hk' hkm
    · obtain rfl : n = m := hkm
      cases hs.symm.trans hms

/-- What a `close` of the current `net.Server` does to servers and closers. -/
structure BeginsClosing (w v : World) (n : ServerId) (x : Closer) : Prop where
  server : v.server = none
  servers : v.servers =
    if w.servers n = .listening then Function.update w.servers n .closing else w.servers
  nextServer : v.nextServer = w.nextServer
  nextSocket : v.nextSocket = w.nextSocket
  conn : ∀ k, (v.conns k).server = (w.conns k).server ∧ (v.conns k).closed = (w.conns k).closed
  closers : v.closers = Function.update w.closers w.nextCloser x
  nextCloser : v.nextCloser = w.nextCloser + 1

theorem ServersWf.beginsClosing {w v : World} (h : w.ServersWf) {n : ServerId} {x : Closer}
    (hn : w.server = some n) (hex : ∀ m < w.nextServer, w.servers m ≠ .starting)
    (hserver : x.server = some n) (hrunning : x.running = decide (w.servers n = .listening))
    (hclosed : x.closed = none) (hfinished : x.isFinished = false)
    (hv : BeginsClosing w v n x) : v.ServersWf := by
  obtain ⟨hlt, hnc, hncl, hfin⟩ := h.idle n hn
  have hold : ∀ c, c < w.nextCloser → v.closers c = w.closers c := fun c hc => by
    rw [hv.closers, Function.update_apply, if_neg (Nat.ne_of_lt hc)]
  have hself : v.closers w.nextCloser = x := by rw [hv.closers, Function.update_self]
  have hcloser : ∀ c, c < v.nextCloser → c < w.nextCloser ∨ c = w.nextCloser := fun c hc => by
    rw [hv.nextCloser] at hc
    exact Nat.lt_or_eq_of_le (Nat.le_of_lt_succ hc)
  have hne : ∀ m, m ≠ n → v.servers m = w.servers m := fun m hm => by
    rw [hv.servers]
    split_ifs
    · rw [Function.update_apply, if_neg hm]
    · rfl
  have hat : v.servers n = if w.servers n = .listening then .closing else w.servers n := by
    rw [hv.servers]
    split_ifs <;> simp
  have hopen : ∀ m < w.nextServer, w.servers m ≠ .starting ∧ (m ≠ n → w.servers m ≠ .listening) :=
    fun m hm => ⟨hex m hm, fun hmn hs =>
      hmn (Option.some.inj ((h.current m hm (Or.inr hs)).symm.trans hn))⟩
  refine ⟨fun m hm hs => ?_, fun m hm => ?_, fun c hc c' hc' hf hf' => ?_, fun m hm hs => ?_,
    fun k hk => ?_, fun m hm hs k hk hkm => ?_, fun c hc m hm => ?_⟩
  · rw [hv.nextServer] at hm
    by_cases hmn : m = n
    · subst hmn
      rw [hat] at hs
      split_ifs at hs with hl
      · simp at hs
      · rcases hs with hs | hs
        · exact absurd hs (hopen m hm).1
        · exact absurd hs hl
    · rw [hne m hmn] at hs
      rcases hs with hs | hs
      · exact absurd hs (hopen m hm).1
      · exact absurd hs ((hopen m hm).2 hmn)
  · rw [hv.server] at hm
    cases hm
  · have hnew : ∀ c, c < v.nextCloser → (v.closers c).isFinished = false → c = w.nextCloser := by
      intro c hc hf
      rcases hcloser c hc with hlt | he
      · rw [hold c hlt, hfin c hlt] at hf
        cases hf
      · exact he
    rw [hnew c hc hf, hnew c' hc' hf']
  · by_cases hmn : m = n
    · subst hmn
      rw [hat] at hs
      split_ifs at hs with hl
      · refine ⟨w.nextCloser, by rw [hv.nextCloser]; exact Nat.lt_succ_self _, ?_⟩
        rw [hself]
        exact ⟨hfinished, hserver, by simp [hrunning, hl], hclosed⟩
      · exact absurd hs hnc
    · rw [hne m hmn] at hs
      obtain ⟨c, hc, hf, -⟩ := h.closing m (hv.nextServer ▸ hm) hs
      rw [hfin c hc] at hf
      cases hf
  · obtain ⟨h₁, h₂, h₃⟩ := h.socket k (hv.nextSocket ▸ hk)
    rw [hv.nextServer, (hv.conn k).1]
    refine ⟨h₁, ?_⟩
    by_cases hmn : (w.conns k).server = n
    · rw [hmn] at h₂ h₃ ⊢
      rw [hat]
      split_ifs
      · exact ⟨by simp, by simp⟩
      · exact ⟨h₂, h₃⟩
    · rw [hne _ hmn]
      exact ⟨h₂, h₃⟩
  · rw [(hv.conn k).1] at hkm
    rw [(hv.conn k).2]
    have hs' : w.servers m = .closed := by
      by_cases hmn : m = n
      · subst hmn
        rw [hat] at hs
        split_ifs at hs
        exact hs
      · rwa [hne m hmn] at hs
    exact h.gone m (hv.nextServer ▸ hm) hs' k (hv.nextSocket ▸ hk) hkm
  · rcases hcloser c hc with hlt' | rfl
    · rw [hold c hlt'] at hm ⊢
      obtain ⟨h₁, h₂, h₃⟩ := h.closer c hlt' m hm
      refine ⟨hv.nextServer ▸ h₁, h₂, fun hok => ?_⟩
      have hs := h₃ hok
      rw [hne m (fun hmn => hncl (hmn ▸ hs)), hs]
    · rw [hself] at hm ⊢
      obtain rfl := Option.some.inj (hserver.symm.trans hm)
      exact ⟨hv.nextServer ▸ hlt, fun hf => by simp [hfinished] at hf, fun hok => by
        simp [hclosed] at hok⟩

theorem ServersWf.close {w : World} (h : w.ServersWf) (o : RpcServerCloseOptions)
    (hex : Exclusive w (.close o)) : (w.close o).ServersWf := by
  rcases close_cases w o with ⟨hs, he⟩ | ⟨n, hn, ⟨-, -, he⟩ | ⟨-, -, he⟩ | ⟨-, he⟩⟩ <;> rw [he]
  · have hold : ∀ x : Closer, ∀ c, c < w.nextCloser →
        Function.update w.closers w.nextCloser x c = w.closers c := fun x c hc => by
      rw [Function.update_apply, if_neg (Nat.ne_of_lt hc)]
    have hcases : ∀ c, c < w.nextCloser + 1 → c < w.nextCloser ∨ c = w.nextCloser :=
      fun c hc => Nat.lt_or_eq_of_le (Nat.le_of_lt_succ hc)
    refine ⟨h.current, fun n hn => ?_, fun c hc c' hc' hf hf' => ?_, fun n hn hs => ?_, h.socket,
      h.gone, fun c hc n hn => ?_⟩
    · cases hs.symm.trans hn
    · rcases hcases c hc with hlt | rfl
      · rcases hcases c' hc' with hlt' | rfl
        · simp only [addCloser, hold _ c hlt, hold _ c' hlt'] at hf hf'
          exact h.single c hlt c' hlt' hf hf'
        · simp [addCloser, Closer.isFinished] at hf'
      · simp [addCloser, Closer.isFinished] at hf
    · obtain ⟨c, hc, hrest⟩ := h.closing n hn hs
      refine ⟨c, Nat.lt_succ_of_lt hc, ?_⟩
      simp only [addCloser, hold _ c hc]
      exact hrest
    · rcases hcases c hc with hlt | rfl
      · simp only [addCloser, hold _ c hlt] at hn ⊢
        exact h.closer c hlt n hn
      · simp [addCloser] at hn
  · refine h.beginsClosing hn hex (x := ⟨some n, decide (w.servers n = .listening), true, none, false,
      true, none, .draining⟩) rfl rfl rfl rfl ?_
    rw [beginDrain, closeServer_eq]
    exact ⟨rfl, rfl, rfl, rfl, fun _ => ⟨rfl, rfl⟩, rfl, rfl⟩
  · refine h.beginsClosing hn hex (x := ⟨some n, decide (w.servers n = .listening), true,
      some (o.timeoutMs.getD 3000), false, false, none, .draining⟩) rfl rfl rfl rfl ?_
    rw [beginDrain, closeServer_eq]
    exact ⟨rfl, rfl, rfl, rfl, fun _ => ⟨rfl, rfl⟩, rfl, rfl⟩
  · refine h.beginsClosing hn hex (x := ⟨some n, decide (w.servers n = .listening), false, none, false,
      false, none, .closing⟩) rfl rfl rfl rfl ?_
    rw [beginClose, closeServer_eq]
    refine ⟨rfl, rfl, rfl, rfl, fun k => ?_, rfl, rfl⟩
    change ((closeConnections _).conns k).server = _ ∧ ((closeConnections _).conns k).closed = _
    rw [conns_closeConnections]
    split_ifs <;> exact ⟨rfl, rfl⟩

theorem sameLifecycle_closeConnections (w : World) : SameLifecycle w w.closeConnections := by
  refine ⟨rfl, rfl, rfl, rfl, rfl, fun k => ?_, fun _ => ⟨rfl, rfl, rfl, rfl⟩⟩
  rw [conns_closeConnections]
  split_ifs <;> exact ⟨rfl, id⟩

theorem sameLifecycle_updateCloser (w : World) (c : CloseId) {f : Closer → Closer}
    (hf : (f (w.closers c)).server = (w.closers c).server ∧
      (f (w.closers c)).running = (w.closers c).running ∧
      (f (w.closers c)).closed = (w.closers c).closed ∧
      (f (w.closers c)).isFinished = (w.closers c).isFinished) :
    SameLifecycle w (w.updateCloser c f) := by
  refine ⟨rfl, rfl, rfl, rfl, rfl, fun _ => ⟨rfl, id⟩, fun c' => ?_⟩
  simp only [updateCloser, Function.update_apply]
  split_ifs with hc
  · subst hc
    exact hf
  · exact ⟨rfl, rfl, rfl, rfl⟩

theorem sameLifecycle_resumeDrain {w : World} {c : CloseId}
    (hp : (w.closers c).phase = .draining) : SameLifecycle w (w.resumeDrain c) := by
  refine (sameLifecycle_closeConnections w).trans (sameLifecycle_updateCloser _ c ⟨rfl, rfl, rfl, ?_⟩)
  have hc : w.closeConnections.closers c = w.closers c := rfl
  simp [hc, Closer.isFinished, hp]

theorem ServersWf.closedServer {w : World} (h : w.ServersWf) {c : CloseId} {n : ServerId}
    (hlt : c < w.nextCloser) (hn : (w.closers c).server = some n)
    (hclosed : (w.closers c).closed = none)
    (hgone : (w.closers c).running = true → w.Unconnected n) : (w.closedServer c n).ServersWf := by
  obtain ⟨hnlt, hfin, -⟩ := h.closer c hlt n hn
  have hopen : (w.closers c).isFinished = false := by
    cases hf : (w.closers c).isFinished with
    | false => rfl
    | true => simpa [hclosed] using hfin hf
  have hcloser : ∀ c', ((w.closedServer c n).closers c').server = (w.closers c').server ∧
      ((w.closedServer c n).closers c').running = (w.closers c').running ∧
      ((w.closedServer c n).closers c').isFinished = (w.closers c').isFinished ∧
      (c' ≠ c → ((w.closedServer c n).closers c').closed = (w.closers c').closed) := by
    intro c'
    simp only [World.closedServer, updateCloser, Function.update_apply]
    split_ifs with hc
    · subst hc
      exact ⟨rfl, rfl, rfl, fun hne => absurd rfl hne⟩
    · exact ⟨rfl, rfl, rfl, fun _ => rfl⟩
  have hself : ((w.closedServer c n).closers c).closed = some (closeResult (w.closers c)) := by
    simp [World.closedServer, updateCloser]
  -- no server is current while `c` waits
  have hnone : ∀ m, w.server ≠ some m := fun m hm => by
    have := (h.idle m hm).2.2.2 c hlt
    simp [hopen] at this
  have hserver : ∀ m, (w.closedServer c n).servers m = w.servers m ∨
      (m = n ∧ (w.closers c).running = true ∧ (w.closedServer c n).servers m = .closed) := by
    intro m
    simp only [World.closedServer]
    split_ifs with hr
    · by_cases hm : m = n
      · exact Or.inr ⟨hm, hr, by rw [hm, Function.update_self]⟩
      · exact Or.inl (by rw [Function.update_apply, if_neg hm])
    · exact Or.inl rfl
  have hback : ∀ m q, q ≠ .closed → (w.closedServer c n).servers m = q → w.servers m = q := by
    intro m q hq hm
    rcases hserver m with he | ⟨-, -, he⟩
    · exact he ▸ hm
    · exact absurd (he.symm.trans hm) (Ne.symm hq)
  refine ⟨fun m hm hs => ?_, fun m hm => absurd hm (hnone m), fun c₁ h₁ c₂ h₂ hf₁ hf₂ => ?_,
    fun m hm hs => ?_, fun k hk => ?_, fun m hm hs => ?_, fun c' hc' m hm => ?_⟩
  · exact h.current m hm (hs.imp (hback m _ (by simp)) (hback m _ (by simp)))
  · exact h.single c₁ h₁ c₂ h₂ ((hcloser c₁).2.2.1 ▸ hf₁) ((hcloser c₂).2.2.1 ▸ hf₂)
  · obtain ⟨c', hc', hf', hs', hr', hcl'⟩ := h.closing m hm (hback m _ (by simp) hs)
    obtain rfl := h.single c' hc' c hlt hf' hopen
    obtain rfl := Option.some.inj (hn.symm.trans hs')
    rcases hserver n with he | ⟨-, -, he⟩
    · simp only [World.closedServer, hr', if_true, Function.update_self] at hs
      cases hs
    · cases he.symm.trans hs
  · obtain ⟨h₁, h₂, h₃⟩ := h.socket k hk
    refine ⟨h₁, fun hs => h₂ (hback _ _ (by simp) hs), fun hs => h₃ (hback _ _ (by simp) hs)⟩
  · rcases hserver m with he | ⟨rfl, hr, -⟩
    · exact h.gone m hm (he ▸ hs)
    · exact hgone hr
  · rw [(hcloser c').1] at hm
    obtain ⟨h₁, h₂, h₃⟩ := h.closer c' hc' m hm
    by_cases hcc : c' = c
    · subst hcc
      rw [hself]
      refine ⟨h₁, fun _ => rfl, fun hok => ?_⟩
      obtain rfl := Option.some.inj (hn.symm.trans hm)
      have hr : (w.closers c').running = true := by
        by_contra hr
        simp [closeResult, hr] at hok
      simp [World.closedServer, hr]
    · rw [(hcloser c').2.2.1, (hcloser c').2.2.2 hcc]
      refine ⟨h₁, h₂, fun hok => ?_⟩
      have hs := h₃ hok
      rcases hserver m with he | ⟨-, -, he⟩
      · rw [he, hs]
      · exact he

theorem resumeClose_cases {w : World} {c : CloseId} (hc : (w.closers c).closed.isSome) :
    ∃ result, (w.closers c).closed = some result ∧ w.resumeClose c =
      { w.updateCloser c fun x => { x with phase := .finished result } with
        state :=
          if (w.closers c).graceful ∧ result.toOption.isSome then .closed else w.state } := by
  obtain ⟨result, hr⟩ := Option.isSome_iff_exists.mp hc
  exact ⟨result, hr, by simp only [World.resumeClose, hr]⟩

theorem ServersWf.resumeClose {w : World} (h : w.ServersWf) {c : CloseId} (hlt : c < w.nextCloser)
    (hp : (w.closers c).phase = .closing) (hc : (w.closers c).closed.isSome) :
    (w.resumeClose c).ServersWf := by
  obtain ⟨result, hr, he⟩ := resumeClose_cases hc
  rw [he]
  have hopen : (w.closers c).isFinished = false := by simp [Closer.isFinished, hp]
  have hnone : ∀ m, w.server ≠ some m := fun m hm => by
    have := (h.idle m hm).2.2.2 c hlt
    simp [hopen] at this
  have hcloser : ∀ c', (c' = c ∧ ((w.updateCloser c fun x =>
      { x with phase := .finished result }).closers c').isFinished = true) ∨
      (w.updateCloser c fun x => { x with phase := .finished result }).closers c' =
        w.closers c' := by
    intro c'
    simp only [updateCloser, Function.update_apply]
    split_ifs with hcc
    · exact Or.inl ⟨hcc, rfl⟩
    · exact Or.inr rfl
  have hold : ∀ {c'}, ((w.updateCloser c fun x =>
      { x with phase := .finished result }).closers c').isFinished = false →
      (w.closers c').isFinished = false := by
    intro c' hf
    rcases hcloser c' with ⟨-, ht⟩ | he
    · cases ht.symm.trans hf
    · exact he ▸ hf
  refine ⟨h.current, fun m hm => absurd hm (hnone m), fun c₁ h₁ c₂ h₂ hf₁ hf₂ => ?_,
    fun m hm hs => ?_, h.socket, h.gone, fun c' hc' m hm => ?_⟩
  · exact h.single c₁ h₁ c₂ h₂ (hold hf₁) (hold hf₂)
  · obtain ⟨c', hc', hf', hs', hr', hcl'⟩ := h.closing m hm hs
    obtain rfl := h.single c' hc' c hlt hf' hopen
    cases hcl'.symm.trans hr
  · simp only [updateCloser, Function.update_apply] at hm ⊢
    split_ifs at hm ⊢ with hcc
    · subst hcc
      obtain ⟨h₁, -, h₃⟩ := h.closer c' hlt m hm
      exact ⟨h₁, fun _ => hc, h₃⟩
    · exact h.closer c' hc' m hm

theorem ServersWf.step {w w' : World} {e : Event} (h : w.ServersWf)
    (hs : (machine.guard Exclusive).Step w e w') : w'.ServersWf := by
  obtain ⟨hex, hs⟩ := Machine.guard_step.mp hs
  cases answer_of_step hs with
  | turn _ _ hrun => exact h.same (sameLifecycle_micros hrun)
  | registerService => exact h.same ⟨rfl, rfl, rfl, rfl, rfl, fun _ => ⟨rfl, id⟩, fun _ =>
      ⟨rfl, rfl, rfl, rfl⟩⟩
  | listen o => exact h.listen o hex
  | listening hlt hst => exact h.started hlt hst (Or.inl rfl) .listening
  | listenError hlt hst => exact h.started hlt hst (Or.inr rfl) w.state
  | connection hlt hl _ => exact h.connection hlt hl
  | peerEnd => exact h.same (sameLifecycle_updateSocket w _ rfl id)
  | finished => exact h.same (sameLifecycle_updateSocket w _ rfl id)
  | @socketClose k =>
    have hu := sameLifecycle_updateSocket w k (f := fun s => { s with closed := true }) rfl
      fun _ => rfl
    exact h.same ⟨rfl, rfl, rfl, rfl, rfl, hu.conn, hu.closer⟩
  | close o => exact h.close o hex
  | @drainTimeout c =>
    have hu := sameLifecycle_updateCloser w c (f := fun x =>
      { x with timer := none, timedOut := true, drained := true }) ⟨rfl, rfl, rfl, rfl⟩
    exact h.same ⟨rfl, rfl, rfl, rfl, rfl, hu.conn, hu.closer⟩
  | resumeDrain _ hp _ => exact h.same (sameLifecycle_resumeDrain hp)
  | closeCallback hlt hn hc hg => exact h.closedServer hlt hn hc hg
  | resumeClose hlt hp hc => exact h.resumeClose hlt hp hc

end World

end WeisleyRpc.Server
