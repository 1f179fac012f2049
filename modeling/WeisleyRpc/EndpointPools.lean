import WeisleyRpc.AttemptOutcomes

/-!
# The pools of a client

`getConnectionStats` and `getConnectionState` beside `getConnection` and `close`. A pool is filed
under the key of its address, no two addresses share a key, and no pool has more connections than
its limit allows; what the statistics count are these connections.
-/

theorem JsNumber.not_nonpositive_of_exceeds {x : JsNumber} (h : x.exceeds 0 = true) :
    x.nonpositive = false := by
  cases x with
  | nan | infinity => rfl
  | negInfinity => cases h
  | finite q =>
    simp only [JsNumber.exceeds, Nat.cast_zero, decide_eq_true_eq] at h
    exact decide_eq_false (not_le.mpr h)

namespace WeisleyRpc.Client

/-- `Record<ConnectionState, number>`. -/
abbrev ConnectionStateStats := ConnectionState → ℕ

structure EndpointConnectionStats where
  total : ℕ
  states : ConnectionStateStats

namespace RpcConnectionPool

/-- `states[connection.getState()] += 1`. -/
def countState (getState : ConnectionRef → ConnectionState) (states : ConnectionStateStats)
    (connection : ConnectionRef) : ConnectionStateStats :=
  Function.update states (getState connection) (states (getState connection) + 1)

def getStats (getState : ConnectionRef → ConnectionState) (p : RpcConnectionPool) :
    EndpointConnectionStats where
  total := p.connections.length
  states := p.connections.foldl (countState getState) fun _ => 0

def getState (getState : ConnectionRef → ConnectionState) (p : RpcConnectionPool) :
    ConnectionState :=
  (p.connections[0]?.map getState).getD .idle

variable {f : ConnectionRef → ConnectionState} {p p' : RpcConnectionPool}

theorem foldl_countState (f : ConnectionRef → ConnectionState) (connections : List ConnectionRef)
    (states : ConnectionStateStats) (state : ConnectionState) :
    connections.foldl (countState f) states state =
      states state + connections.countP fun c => f c = state := by
  induction connections generalizing states with
  | nil => rfl
  | cons c connections ih =>
    rw [List.foldl_cons, ih, List.countP_cons, countState]
    by_cases hc : f c = state
    · subst hc
      simp only [Function.update_self, decide_true, if_true]
      omega
    · rw [Function.update_of_ne (Ne.symm hc)]
      simp only [hc, decide_false, Bool.false_eq_true, if_false, Nat.add_zero]

theorem getStats_states (f : ConnectionRef → ConnectionState) (p : RpcConnectionPool)
    (state : ConnectionState) :
    (p.getStats f).states state = p.connections.countP fun c => f c = state := by
  change p.connections.foldl (countState f) _ state = _
  rw [foldl_countState, Nat.zero_add]

/-- Every connection is counted once. -/
theorem getStats_total (f : ConnectionRef → ConnectionState) (p : RpcConnectionPool) :
    (p.getStats f).states .idle + (p.getStats f).states .connecting +
      (p.getStats f).states .connected + (p.getStats f).states .reconnecting +
        (p.getStats f).states .closed = (p.getStats f).total := by
  simp only [getStats_states]
  change _ = p.connections.length
  induction p.connections with
  | nil => rfl
  | cons c connections ih =>
    simp only [List.countP_cons, List.length_cons]
    rw [← ih]
    cases f c <;> simp <;> omega

/-- The connections of a pool are those it has created, and not too many. -/
structure Filled (options : RpcConnectionPoolOptions) (p : RpcConnectionPool) : Prop where
  options_eq : p.options = options
  connections : p.connections = List.range p.created
  bounded : ∀ q, options.maxConnections = .finite q → p.created ≤ capacity q
  index : p.nextIndex = 0 ∨ p.nextIndex < p.connections.length

theorem filled_new {options : RpcConnectionPoolOptions} (h : new options = .ok p) :
    Filled options p := by
  unfold new at h
  split_ifs at h
  obtain rfl := Except.ok.inj h
  exact ⟨rfl, rfl, fun _ _ => Nat.zero_le _, Or.inl rfl⟩

theorem Filled.getConnection {options : RpcConnectionPoolOptions} (h : Filled options p)
    {connection : ConnectionRef} (hget : p.getConnection = .ok (connection, p')) :
    Filled options p' := by
  have hlength : p.connections.length = p.created := by rw [h.connections, List.length_range]
  unfold RpcConnectionPool.getConnection at hget
  split_ifs at hget with hroom
  · obtain ⟨c, hc, hget⟩ := Except.bind_eq_ok_iff.mp hget
    obtain ⟨rfl, rfl⟩ := Prod.mk.inj (Except.ok.inj hget)
    obtain ⟨_, -, hcreated⟩ := Except.bind_eq_ok_iff.mp hc
    obtain rfl := Except.ok.inj hcreated
    refine ⟨h.options_eq, ?_, fun q hq => ?_, h.index.imp_right fun hlt => ?_⟩
    · change p.connections ++ [p.created] = _
      rw [h.connections, List.range_succ]
    · rw [h.options_eq, hq, exceeds_iff, hlength] at hroom
      exact hroom
    · rw [List.length_append]
      exact Nat.lt_add_right 1 hlt
  · split at hget
    · cases hget
    · rename_i connection hsome
      obtain ⟨-, rfl⟩ := Prod.mk.inj (Except.ok.inj hget)
      refine ⟨h.options_eq, h.connections, h.bounded, Or.inr ?_⟩
      have hlt := (List.getElem?_eq_some_iff.mp hsome).1
      exact Nat.mod_lt _ (Nat.lt_of_le_of_lt (Nat.zero_le _) hlt)

/-- A pool that may have a connection has one to hand out. -/
theorem Filled.getConnection_ok {options : RpcConnectionPoolOptions} (h : Filled options p)
    (hlimit : options.maxConnections.exceeds 0 = true) {codec : RpcCodec}
    (hnew : RpcCodec.new options.connectionOptions.codecOptions = .ok codec) :
    ∃ connection p', p.getConnection = .ok (connection, p') := by
  unfold RpcConnectionPool.getConnection
  rw [h.options_eq]
  split_ifs with hroom
  · refine ⟨p.created, { p with
      connections := p.connections ++ [p.created]
      created := p.created + 1 }, ?_⟩
    simp only [createConnection, h.options_eq, hnew]
    rfl
  · have hsome : p.connections[p.nextIndex]? ≠ none := by
      intro hnone
      have hle := List.getElem?_eq_none_iff.mp hnone
      rcases h.index with hzero | hlt
      · rw [hzero, Nat.le_zero] at hle
        exact hroom (hle ▸ hlimit)
      · omega
    obtain ⟨connection, hconnection⟩ := Option.ne_none_iff_exists'.mp hsome
    rw [hconnection]
    exact ⟨connection, _, rfl⟩

end RpcConnectionPool

section Keys

theorem append_cons_inj {α : Type*} {a : α} {l₁ l₂ m₁ m₂ : List α} (h₁ : a ∉ m₁) (h₂ : a ∉ m₂)
    (h : l₁ ++ a :: m₁ = l₂ ++ a :: m₂) : l₁ = l₂ ∧ m₁ = m₂ := by
  rcases List.append_eq_append_iff.mp h with ⟨k, rfl, hk⟩ | ⟨k, rfl, hk⟩
  · cases k with
    | nil => exact ⟨(List.append_nil _).symm, (List.cons.inj hk).2⟩
    | cons b k =>
      have hm : m₁ = k ++ a :: m₂ := (List.cons.inj hk).2
      exact absurd (hm ▸ List.mem_append_right _ List.mem_cons_self) h₁
  · cases k with
    | nil => exact ⟨List.append_nil _, (List.cons.inj hk).2.symm⟩
    | cons b k =>
      have hm : m₂ = k ++ a :: m₁ := (List.cons.inj hk).2
      exact absurd (hm ▸ List.mem_append_right _ List.mem_cons_self) h₂

theorem colon_not_mem_repr (n : ℕ) : ':' ∉ n.repr.toList := by
  intro hmem
  rw [Nat.toList_repr] at hmem
  have hdigit := Nat.isDigit_of_mem_toDigits (by decide) (by decide) hmem
  exact absurd hdigit (by decide)

/-- The last colon of a key ends the host. -/
theorem getEndpointKey_inj {host host' : String} {port port' : ℕ}
    (h : getEndpointKey host port = getEndpointKey host' port') : host = host' ∧ port = port' := by
  have hlist : host.toList ++ ':' :: port.repr.toList =
      host'.toList ++ ':' :: port'.repr.toList := by
    have hchars := congrArg String.toList h
    simpa [getEndpointKey, toString, String.toList_append] using hchars
  obtain ⟨hhost, hport⟩ :=
    append_cons_inj (colon_not_mem_repr port) (colon_not_mem_repr port') hlist
  refine ⟨String.toList_inj.mp hhost, ?_⟩
  rw [Nat.toList_repr, Nat.toList_repr] at hport
  rw [← Nat.ofDigitChars_ten_toDigits (n := port), hport, Nat.ofDigitChars_ten_toDigits]

end Keys

namespace ClientNetwork
variable {o : CommonRpcClientOptions} {codec : RpcCodec} {u v w w' : ClientNetwork}

def getConnectionStats (w : ClientNetwork) : List (String × EndpointConnectionStats) :=
  w.pools.entries.map fun e =>
    (e.1, e.2.pool.getStats fun connection => (w.connections ⟨e.1, connection⟩).state)

/-- In direct mode. -/
def getConnectionState (w : ClientNetwork) (host : String) (port : ℕ) : ConnectionState :=
  let key := getEndpointKey host port
  ((w.pools.get key).map fun pool =>
    pool.pool.getState fun connection => (w.connections ⟨key, connection⟩).state).getD .idle

structure PoolsWf (o : CommonRpcClientOptions) (w : ClientNetwork) : Prop where
  filed : ∀ key pool, w.pools.get key = some pool → key = getEndpointKey pool.host pool.port
  filled : ∀ key pool, w.pools.get key = some pool → pool.pool.Filled o.poolOptions

theorem PoolsWf.of_pools (h : PoolsWf o w) (hp : v.pools = w.pools) : PoolsWf o v :=
  ⟨hp ▸ h.filed, hp ▸ h.filled⟩

theorem PoolsWf.setPool (h : PoolsWf o w) {key : String} {pool : EndpointPool}
    (hkey : key = getEndpointKey pool.host pool.port) (hfilled : pool.pool.Filled o.poolOptions) :
    PoolsWf o { w with pools := w.pools.set key pool } := by
  refine ⟨fun key' pool' hget => ?_, fun key' pool' hget => ?_⟩ <;>
    simp only [OrderedMap.get_set] at hget <;> split_ifs at hget with hk
  · obtain rfl := Option.some.inj hget
    exact hk.trans hkey
  · exact h.filed key' pool' hget
  · obtain rfl := Option.some.inj hget
    exact hfilled
  · exact h.filled key' pool' hget

theorem PoolsWf.takeConnection (h : PoolsWf o w) {key : String} {pool : EndpointPool}
    (hget : w.pools.get key = some pool) : PoolsWf o (w.takeConnection key pool).2 := by
  unfold ClientNetwork.takeConnection
  cases htaken : pool.pool.getConnection with
  | error e => exact h
  | ok taken =>
    obtain ⟨connection, p'⟩ := taken
    have hfiled : key = getEndpointKey { pool with pool := p' }.host { pool with pool := p' }.port :=
      h.filed key pool hget
    exact h.setPool hfiled ((h.filled key pool hget).getConnection htaken)

theorem PoolsWf.getConnection (h : PoolsWf o w) (host : String) (port : ℕ) :
    PoolsWf o (w.getConnection o host port).2 := by
  unfold ClientNetwork.getConnection
  cases hpool : w.pools.get (getEndpointKey host port) with
  | some pool =>
    simp only [hpool]
    exact h.takeConnection hpool
  | none =>
    cases hnew : RpcConnectionPool.new o.poolOptions with
    | error e =>
      simp only [hpool]
      exact h
    | ok pool =>
      simp only [hpool]
      have hadded : PoolsWf o { w with
          pools := w.pools.set (getEndpointKey host port) ⟨host, port, pool⟩ } :=
        h.setPool rfl (RpcConnectionPool.filled_new hnew)
      exact hadded.takeConnection (by simp only [OrderedMap.get_set, if_true])

theorem PoolsWf.getConnection_ok (h : PoolsWf o w)
    (hlimit : o.poolOptions.maxConnections.exceeds 0 = true)
    (hnew : RpcCodec.new o.connectionOptions.codecOptions = .ok codec) (host : String) (port : ℕ) :
    ∃ c, (w.getConnection o host port).1 = .ok c := by
  have htake : ∀ {v : ClientNetwork} {key : String} {pool : EndpointPool},
      pool.pool.Filled o.poolOptions → ∃ c, (v.takeConnection key pool).1 = .ok c := by
    intro v key pool hfilled
    obtain ⟨connection, p', htaken⟩ := hfilled.getConnection_ok hlimit hnew
    refine ⟨⟨key, connection⟩, ?_⟩
    simp only [ClientNetwork.takeConnection, htaken]
  unfold ClientNetwork.getConnection
  cases hpool : w.pools.get (getEndpointKey host port) with
  | some pool =>
    simp only [hpool]
    exact htake (h.filled _ pool hpool)
  | none =>
    cases hpositive : RpcConnectionPool.new o.poolOptions with
    | error e =>
      unfold RpcConnectionPool.new at hpositive
      split_ifs at hpositive with hnonpositive
      rw [JsNumber.not_nonpositive_of_exceeds hlimit] at hnonpositive
      cases hnonpositive
    | ok pool =>
      simp only [hpool]
      exact htake (RpcConnectionPool.filled_new hpositive)

theorem pools_send (codec : RpcCodec) (w : ClientNetwork) (attempt : CallAttempt)
    (c : ConnectionId) : (w.send codec attempt c).pools = w.pools := by
  unfold send
  split
  · rfl
  · dsimp only
    split <;> rfl

theorem PoolsWf.step {e : NetworkEvent} (h : PoolsWf o w) (hs : (machine o codec).Step w e w') :
    PoolsWf o w' := by
  obtain ⟨-, happly⟩ := hs
  cases e with
  | begin request host port =>
    obtain rfl := Except.ok.inj happly
    have hget := h.getConnection host port
    unfold begin
    cases hresult : w.getConnection o host port with
    | mk result v =>
      rw [hresult] at hget
      cases result with
      | error e => exact hget.of_pools rfl
      | ok c =>
        dsimp only
        split_ifs
        · exact hget.of_pools (pools_send _ _ _ _)
        · exact hget.of_pools rfl
  | resume id =>
    obtain rfl := Except.ok.inj happly
    refine h.of_pools ?_
    unfold resume
    repeat' split
    all_goals first | rfl | exact pools_send _ _ _ _
  | connection c e =>
    change (Client.apply o.connectionOptions (w.connections c) e).map _ = _ at happly
    cases hc : Client.apply o.connectionOptions (w.connections c) e with
    | error x => simp [hc, Except.map] at happly
    | ok k =>
      rw [hc] at happly
      obtain rfl := Except.ok.inj happly
      exact h.of_pools rfl
  | connect host port =>
    obtain rfl := Except.ok.inj happly
    have hget := h.getConnection host port
    unfold ClientNetwork.connect
    cases hresult : w.getConnection o host port with
    | mk result v =>
      rw [hresult] at hget
      cases result with
      | error e => exact hget
      | ok c => exact hget.of_pools rfl
  | close =>
    obtain rfl := Except.ok.inj happly
    exact h.of_pools rfl

theorem PoolsWf.of_reachable (h : (machine o codec).Reachable (init codec) w) : PoolsWf o w := by
  refine h.invariant (fun _ _ _ hi hs => hi.step hs) ⟨fun _ _ hget => ?_, fun _ _ hget => ?_⟩
  · cases hget
  · cases hget

/-- A connection that has accepted a call is in use. -/
theorem NetworkWf.inUse_of_accepted (h : NetworkWf o codec w) {c : ConnectionId}
    {a : AcceptedCall} (ha : a ∈ (w.connections c).accepted) : w.InUse c := by
  by_contra hno
  rw [h.unused c hno] at ha
  cases ha

/-- The connection belongs to the pool of the address, which alone has its key. -/
def PooledFor (w : ClientNetwork) (c : ConnectionId) (host : String) (port : ℕ) : Prop :=
  ∃ pool, w.pools.get c.endpoint = some pool ∧ pool.host = host ∧ pool.port = port ∧
    c.connection ∈ pool.pool.connections

theorem PoolsWf.pooledFor (h : PoolsWf o w) {c : ConnectionId} (hin : w.InUse c) {host : String}
    {port : ℕ} (hkey : c.endpoint = getEndpointKey host port) : w.PooledFor c host port := by
  obtain ⟨pool, hget, hmem⟩ := hin
  obtain ⟨hhost, hport⟩ := getEndpointKey_inj ((h.filed _ pool hget).symm.trans hkey)
  exact ⟨pool, hget, hhost, hport, hmem⟩

theorem Records.pooledFor (h : Records codec w) (hw : NetworkWf o codec w) (hp : PoolsWf o w)
    {x : Transmission} (hx : x ∈ w.transmissions) {host : String} {port : ℕ}
    (hkey : x.connection.endpoint = getEndpointKey host port) :
    w.PooledFor x.connection host port := by
  have hmem : x.accepted ∈ (w.connections x.connection).accepted := by
    rw [← h.accepted x.connection]
    exact List.mem_map_of_mem (List.mem_filter.mpr ⟨hx, decide_eq_true rfl⟩)
  exact hp.pooledFor (hw.inUse_of_accepted hmem) hkey

/-- The connections of a pool are distinct and within the limit, the statistics count each of
them once in its state, and whatever is awaited or was sent went to the pool of its address. -/
structure PoolsAccounted (o : CommonRpcClientOptions) (w : ClientNetwork) : Prop where
  distinct : ∀ key pool, w.pools.get key = some pool → pool.pool.connections.Nodup
  bounded : ∀ key pool q, w.pools.get key = some pool → o.poolOptions.maxConnections = .finite q →
    pool.pool.connections.length ≤ RpcConnectionPool.capacity q
  counted : ∀ key stats, (key, stats) ∈ w.getConnectionStats → ∃ pool,
    w.pools.get key = some pool ∧ stats.total = pool.pool.connections.length ∧
      (∀ state, stats.states state = pool.pool.connections.countP fun connection =>
        (w.connections ⟨key, connection⟩).state = state) ∧
      stats.states .idle + stats.states .connecting + stats.states .connected +
        stats.states .reconnecting + stats.states .closed = stats.total
  awaited : ∀ id attempt c, w.attempts.get id = some attempt →
    ((∃ n, attempt.phase = .connecting c n) ∨ ∃ call, attempt.phase = .sending c call) →
      w.PooledFor c attempt.host attempt.port
  sent : ∀ x ∈ w.transmissions, ∃ host port, w.Began x.request host port ∧
    w.PooledFor x.connection host port

theorem pools_accounted (h : (machine o codec).Reachable (init codec) w) : PoolsAccounted o w := by
  have hw := NetworkWf.of_reachable h
  have hrecords := Records.of_reachable h
  have hpools := PoolsWf.of_reachable h
  refine ⟨fun key pool hget => ?_, fun key pool q hget hq => ?_, fun key stats hmem => ?_,
    fun id attempt c hget hphase => ?_, fun x hx => ?_⟩
  · rw [(hpools.filled key pool hget).connections]
    exact List.nodup_range
  · rw [(hpools.filled key pool hget).connections, List.length_range]
    exact (hpools.filled key pool hget).bounded q hq
  · obtain ⟨⟨key', pool⟩, hentry, he⟩ := List.mem_map.mp hmem
    obtain ⟨rfl, rfl⟩ := Prod.mk.inj he
    exact ⟨pool, w.pools.get_eq_some_iff.mpr hentry, rfl,
      fun state => RpcConnectionPool.getStats_states _ _ _, RpcConnectionPool.getStats_total _ _⟩
  · have hlocated := hrecords.located id attempt hget
    rcases hphase with ⟨n, hphase⟩ | ⟨call, hphase⟩ <;> simp only [Located, hphase] at hlocated
    · exact hpools.pooledFor (hw.connecting id attempt c n hget hphase).1 hlocated.1
    · obtain ⟨s, hs⟩ := hw.sending id attempt c call hget hphase
      exact hpools.pooledFor (hw.inUse_of_accepted hs) hlocated.1
  · obtain ⟨host, port, hbegan, hkey⟩ := hrecords.sent x hx
    exact ⟨host, port, hbegan, hrecords.pooledFor hw hpools hx hkey⟩

theorem pools_accounted_sampleSent :
    PoolsAccounted sampleClientOptions (sampleSent.get sampleSent_isSome) :=
  pools_accounted ⟨_, Machine.run_exec_get sampleSent_isSome⟩

theorem state_close (v : World) : v.close.state = .closed := by
  rw [World.close_eq, World.cancelReconnect_eq]
  unfold World.endSocket
  split <;> rfl

/-- A call that was open when its connection was closed is settled by that. -/
theorem settlement_close {c : ConnectionId} {call : CallId} {id : String} {t : TimerId}
    (hin : w.InUse c) (hopen : w.settlement c call = none)
    (hp : (w.connections c).pending.get id = some ⟨call, t⟩) :
    ∃ x, w.close.settlement c call = some x ∧ x.outcome = .error World.connectionClosed := by
  have hsettled : (w.close.connections c).settled = (w.connections c).settled ++
      World.rejections (w.connections c).pending.entries World.connectionClosed := by
    simp only [close, if_pos hin]
    exact (World.close_tables _).2
  have hmem := World.mem_rejections hp World.connectionClosed
  have hfind : w.close.settlement c call =
      (World.rejections (w.connections c).pending.entries World.connectionClosed).find?
        fun x => x.call = call := by
    unfold settlement at hopen ⊢
    rw [hsettled, List.find?_append, hopen, Option.none_or]
  cases hx : w.close.settlement c call with
  | none =>
    rw [hx] at hfind
    have hno := List.find?_eq_none.mp hfind.symm _ hmem
    simp at hno
  | some x =>
    rw [hx] at hfind
    obtain ⟨entry, -, rfl⟩ := List.mem_map.mp (List.mem_of_find?_eq_some hfind.symm)
    exact ⟨_, rfl, rfl⟩

/-- Behind `close` every connection of every pool is closed and none has a pending call. Each
attempt that awaits `send` can go on, with what had settled its send before or else with the
error of the closing. -/
structure SendsEnded (w v : ClientNetwork) : Prop where
  closed : ∀ key stats, (key, stats) ∈ v.getConnectionStats → stats.states .closed = stats.total
  pending : ∀ c id, (v.connections c).pending.get id = none
  answered : ∀ id attempt c call, v.attempts.get id = some attempt →
    attempt.phase = .sending c call → v.Ready id ∧ ∃ x, v.settlement c call = some x ∧
      (w.settlement c call = some x ∨
        w.settlement c call = none ∧ x.outcome = .error World.connectionClosed)

theorem close_ends_sends (h : (machine o codec).Reachable (init codec) w) :
    SendsEnded w w.close := by
  have hw := NetworkWf.of_reachable h
  refine ⟨fun key stats hmem => ?_, fun c id => ?_, fun id attempt c call hget hphase => ?_⟩
  · obtain ⟨⟨key', pool⟩, hentry, he⟩ := List.mem_map.mp hmem
    obtain ⟨rfl, rfl⟩ := Prod.mk.inj he
    have hstate : ∀ connection ∈ pool.pool.connections,
        (w.close.connections ⟨key', connection⟩).state = .closed := by
      intro connection hc
      have hin : w.InUse ⟨key', connection⟩ := ⟨pool, w.pools.get_eq_some_iff.mpr hentry, hc⟩
      simp only [close, if_pos hin]
      exact state_close _
    rw [RpcConnectionPool.getStats_states]
    exact List.countP_eq_length.mpr fun connection hc => decide_eq_true (hstate connection hc)
  · by_cases hin : w.InUse c
    · simp only [close, if_pos hin]
      exact pending_close _ id
    · simp only [close, if_neg hin]
      rw [hw.unused c hin]
      rfl
  · have hget' : w.attempts.get id = some attempt := hget
    obtain ⟨s, hs⟩ := hw.sending id attempt c call hget' hphase
    have hin := hw.inUse_of_accepted hs
    obtain ⟨x, hx, hfrom⟩ : ∃ x, w.close.settlement c call = some x ∧
        (w.settlement c call = some x ∨
          w.settlement c call = none ∧ x.outcome = .error World.connectionClosed) := by
      cases hold : w.settlement c call with
      | some x =>
        have hprefix : (w.connections c).settled <+: (w.close.connections c).settled := by
          simp only [close, if_pos hin]
          exact (World.Extends.close _).settled
        obtain ⟨more, hmore⟩ := hprefix
        refine ⟨x, ?_, Or.inl rfl⟩
        unfold settlement at hold ⊢
        rw [← hmore, List.find?_append, hold, Option.some_or]
      | none =>
        have hunsettled : call ∉ (w.connections c).settled.map Settlement.call := by
          intro hmem
          have hsome := settlement_of_mem hmem
          rw [hold] at hsome
          cases hsome
        obtain ⟨t, hp⟩ := (hw.callsWf c).unsettled _ hs hunsettled
        obtain ⟨x, hx, hout⟩ := settlement_close hin hold hp
        exact ⟨x, hx, Or.inr ⟨rfl, hout⟩⟩
    refine ⟨⟨attempt, hget, ?_⟩, x, hx, hfrom⟩
    simp only [awaited, hphase, hx, Option.isSome_some]

theorem close_ends_sends_sampleSent :
    SendsEnded (sampleSent.get sampleSent_isSome) (sampleSent.get sampleSent_isSome).close :=
  close_ends_sends ⟨_, Machine.run_exec_get sampleSent_isSome⟩

end ClientNetwork

end WeisleyRpc.Client
