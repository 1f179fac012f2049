import WeisleyRpc.ServerRecords

/-!
# Where the turns of a handler stop

The loop of a data handler goes through pings and other messages and stops at the first request,
at an answer that cannot be encoded, or behind its last message. So each event of a handler says
how far its handler has come and, if it has failed, what threw.
-/

namespace WeisleyRpc.Server

/-- No request lies between message `i` and the message at hand. -/
def Handler.Quiet (x : Handler) (i : ℕ) : Prop :=
  i ≤ x.next ∧ ∀ j m, i ≤ j → j < x.next → x.messages[j]? = some m → ¬ IsRequest m

/-- Where the loop that begins with message `i` has stopped. -/
inductive Handler.Stops (w : World) (k : SocketId) (now : ℚ) (x : Handler) (i : ℕ) : Prop
  | done (phase : x.phase = .done) (past : x.messages.length ≤ x.next) (quiet : x.Quiet i)
  | invokes {m : JsValue} (message : x.messages[x.next]? = some m) (request : IsRequest m)
      (notDraining : w.state ≠ .draining)
      (phase : x.phase = .invoking now (MethodInvoker.call w.registry m)) (quiet : x.Quiet i)
  | refuses {m : JsValue} {payload : Buffer} (message : x.messages[x.next]? = some m)
      (request : IsRequest m) (draining : w.state = .draining)
      (encoded : (w.conns k).codec.config.encode (drainingResponse m) = .ok payload)
      (phase : x.phase = .refusing (w.conns k).doomed) (quiet : x.Quiet i)
  | fails {m answer : JsValue} {error : JsError} (message : x.messages[x.next]? = some m)
      (answers : TurnAnswer w now m answer)
      (thrown : (w.conns k).codec.config.encode answer = .error error)
      (phase : x.phase = .failed) (quiet : x.Quiet i)

theorem Handler.Quiet.weaken {x : Handler} {i : ℕ} (h : x.Quiet (i + 1))
    (hm : ∀ m, x.messages[i]? = some m → ¬ IsRequest m) : x.Quiet i := by
  refine ⟨Nat.le_of_succ_le h.1, fun j m hij hj hget => ?_⟩
  rcases Nat.lt_or_eq_of_le hij with hlt | rfl
  · exact h.2 j m hlt hj hget
  · exact hm m hget

theorem Handler.Stops.weaken {w : World} {k : SocketId} {now : ℚ} {x : Handler} {i : ℕ}
    (h : x.Stops w k now (i + 1)) (hm : ∀ m, x.messages[i]? = some m → ¬ IsRequest m) :
    x.Stops w k now i := by
  cases h with
  | done phase past quiet => exact .done phase past (quiet.weaken hm)
  | invokes message request notDraining phase quiet =>
    exact .invokes message request notDraining phase (quiet.weaken hm)
  | refuses message request draining encoded phase quiet =>
    exact .refuses message request draining encoded phase (quiet.weaken hm)
  | fails message answers thrown phase quiet =>
    exact .fails message answers thrown phase (quiet.weaken hm)

/-- What the loop depends on. -/
theorem Handler.Stops.congr {w v : World} {k : SocketId} {now : ℚ} {x : Handler} {i : ℕ}
    (h : x.Stops v k now i) (hstate : v.state = w.state) (hregistry : v.registry = w.registry)
    (hconfig : (v.conns k).codec.config = (w.conns k).codec.config)
    (hdoomed : (v.conns k).doomed = (w.conns k).doomed) : x.Stops w k now i := by
  cases h with
  | done phase past quiet => exact .done phase past quiet
  | invokes message request notDraining phase quiet =>
    exact .invokes message request (hstate ▸ notDraining) (hregistry ▸ phase) quiet
  | refuses message request draining encoded phase quiet =>
    exact .refuses message request (hstate ▸ draining) (hconfig ▸ encoded) (hdoomed ▸ phase) quiet
  | fails message answers thrown phase quiet =>
    refine .fails message ?_ (hconfig ▸ thrown) phase quiet
    unfold TurnAnswer at answers ⊢
    rwa [← hstate]

namespace ServerSocket
variable {s : ServerSocket} {n : ℕ} {x : Handler}

theorem modify_eq_set {α : Type} {l : List α} {n : ℕ} {a : α} (f : α → α) (h : l[n]? = some a) :
    l.modify n f = l.set n (f a) := by
  refine List.ext_getElem? fun j => ?_
  rw [List.getElem?_modify, List.getElem?_set]
  by_cases hj : n = j
  · subst hj
    rw [h, if_pos rfl, if_pos (List.getElem?_eq_some_iff.mp h).1]
    exact congrArg some (if_pos rfl)
  · simp [hj]

theorem handlers_setPhase (hn : s.handlers[n]? = some x) (phase : Phase) :
    (s.setPhase n phase).handlers = s.handlers.set n { x with phase := phase } :=
  modify_eq_set _ hn

theorem handlers_advance (hn : s.handlers[n]? = some x) : (s.advance n).handlers =
    s.handlers.set n { x with next := x.next + 1, phase := .running } := modify_eq_set _ hn

theorem doomed_write_eq (s : ServerSocket) (wr : Write) : (s.write wr).doomed = s.doomed := by
  unfold write doomed
  cases hd : s.destroyed <;> cases he : s.ended <;> simp [hd, he]

/-- A response is not what another write leaves on the socket. -/
theorem response_of_write {u wr : Write} {outcome : Except Thrown JsValue}
    (hu : u.cause ≠ .response outcome) (hc : wr.cause = .response outcome)
    (hwr : wr ∈ (s.write u).written) : wr ∈ s.written := by
  rw [written_write, List.mem_append] at hwr
  rcases hwr with hwr | hwr
  · exact hwr
  · split_ifs at hwr
    · cases hwr
    · obtain rfl := List.mem_singleton.mp hwr
      exact absurd hc hu

end ServerSocket

namespace World
variable {w w' : World} {k : SocketId} {n : ℕ} {now : ℚ}

theorem conn_of_fail {e : JsError} (h : w.fail k n e = .ok w') :
    w'.conns k = ((w.conns k).setPhase n .failed).destroy := by
  rw [fail_eq_ok h, conns_updateSocket_self]

/-- Where the loop stops, and that it destroys its socket only if it fails or writes to a socket
that takes no bytes. -/
theorem stops_handleMessages {messages : List JsValue} {i : ℕ} {x : Handler}
    (h : handleMessages now k n messages i w = .ok w') (hn : (w.conns k).handlers[n]? = some x)
    (hi : x.next = i) (hd : x.messages.drop i = messages) :
    ∃ x', (w'.conns k).handlers = (w.conns k).handlers.set n x' ∧ x'.messages = x.messages ∧
      x'.Stops w k now i ∧
      ((w'.conns k).destroyed = true → (w.conns k).doomed = true ∨ x'.phase = .failed) := by
  induction messages generalizing i w x with
  | nil =>
    obtain rfl := Except.ok.inj h
    rw [conns_updateSocket_self]
    refine ⟨{ x with phase := .done }, ServerSocket.handlers_setPhase hn _, rfl,
      .done rfl (hi ▸ List.drop_eq_nil_iff.mp hd) ⟨hi.ge, fun j m hij hj => ?_⟩, fun hdestroyed => ?_⟩
    · exact absurd (Nat.lt_of_le_of_lt hij hj) (hi ▸ Nat.lt_irrefl _)
    · have hold : (w.conns k).destroyed = true := hdestroyed
      exact Or.inl (by rw [ServerSocket.doomed, hold, Bool.true_or])
  | cons message messages ih =>
    have hm : x.messages[i]? = some message := by
      rw [← List.head?_drop, hd, List.head?_cons]
    have hrest : x.messages.drop (i + 1) = messages := by
      rw [← List.tail_drop, hd, List.tail_cons]
    have hquiet : ∀ phase, Handler.Quiet { x with phase := phase } i := fun phase =>
      ⟨hi.ge, fun j m hij hj => absurd (Nat.lt_of_le_of_lt hij hj) (hi ▸ Nat.lt_irrefl _)⟩
    -- a turn that writes at most a pong goes on with the next message
    have hnext : ∀ f : ServerSocket → ServerSocket, (f (w.conns k)).handlers = (w.conns k).handlers →
        (f (w.conns k)).codec = (w.conns k).codec → (f (w.conns k)).doomed = (w.conns k).doomed →
        ¬ IsRequest message → handleMessages now k n messages (i + 1)
          (w.updateSocket k fun s => (f s).advance n) = .ok w' →
        ∃ x', (w'.conns k).handlers = (w.conns k).handlers.set n x' ∧ x'.messages = x.messages ∧
          x'.Stops w k now i ∧
          ((w'.conns k).destroyed = true → (w.conns k).doomed = true ∨ x'.phase = .failed) := by
      intro f hf hcodec hdoomed hnot hok
      have hconn : (w.updateSocket k fun s => (f s).advance n).conns k =
          (f (w.conns k)).advance n := conns_updateSocket_self w k _
      have hadvanced := ServerSocket.handlers_advance (hf ▸ hn)
      obtain ⟨x', hx', hmessages, hstops, hdestroyed⟩ := ih
        (x := { x with next := x.next + 1, phase := .running }) hok
        (by rw [hconn]; exact (f (w.conns k)).handlers_advance_self (hf ▸ hn)) (by rw [hi]) hrest
      rw [hconn, hadvanced, hf, List.set_set] at hx'
      refine ⟨x', hx', hmessages, (hstops.weaken fun m hget => ?_).congr rfl rfl ?_ ?_, fun h => ?_⟩
      · rw [hmessages] at hget
        obtain rfl := Option.some.inj (hm.symm.trans hget)
        exact hnot
      · rw [hconn]
        exact congrArg RpcCodec.config hcodec
      · rw [hconn]
        exact hdoomed
      · rw [hconn] at hdestroyed
        exact (hdestroyed h).imp_left fun hd => hdoomed ▸ hd
    cases turn_of_handleMessages h with
    | fails answers thrown failed =>
      rw [conn_of_fail failed]
      exact ⟨{ x with phase := .failed }, ServerSocket.handlers_setPhase hn _, rfl,
        .fails (hi ▸ hm) answers thrown rfl (hquiet _), fun _ => Or.inr rfl⟩
    | refuses request draining encoded left =>
      rw [left, conns_updateSocket_self]
      refine ⟨{ x with phase := .refusing (w.conns k).doomed }, ?_, rfl,
        .refuses (hi ▸ hm) request draining encoded rfl (hquiet _),
        fun hdestroyed => Or.inl ?_⟩
      · rw [ServerSocket.handlers_setPhase (by rwa [ServerSocket.handlers_write]),
          ServerSocket.handlers_write]
      · rw [← ServerSocket.doomed_write_eq, ServerSocket.doomed]
        exact Bool.or_eq_true_iff.mpr (Or.inl hdestroyed)
    | invokes request notDraining left =>
      subst left
      simp only [World.start, conns_updateSocket_self]
      refine ⟨{ x with phase := .invoking now (MethodInvoker.call w.registry message) },
        ServerSocket.handlers_setPhase hn _, rfl,
        .invokes (hi ▸ hm) request notDraining rfl (hquiet _), fun hdestroyed => Or.inl ?_⟩
      exact Bool.or_eq_true_iff.mpr (Or.inl hdestroyed)
    | pongs notRequest _ _ rest =>
      exact hnext (fun s => s.write _) (ServerSocket.handlers_write _ _)
        (ServerSocket.codec_write _ _) (ServerSocket.doomed_write_eq _ _) notRequest rest
    | skips notRequest _ rest => exact hnext id rfl rfl rfl notRequest rest

/-- The loop of a handler writes no responses. -/
theorem responses_handleMessages {messages : List JsValue} {i : ℕ} {wr : Write}
    {outcome : Except Thrown JsValue} (h : handleMessages now k n messages i w = .ok w')
    (hwr : wr ∈ (w'.conns k).written) (hc : wr.cause = .response outcome) :
    wr ∈ (w.conns k).written := by
  induction messages generalizing i w with
  | nil =>
    obtain rfl := Except.ok.inj h
    rwa [conns_updateSocket_self] at hwr
  | cons message messages ih =>
    cases turn_of_handleMessages h with
    | fails _ _ failed => rwa [conn_of_fail failed] at hwr
    | refuses _ _ _ left =>
      rw [left, conns_updateSocket_self] at hwr
      exact ServerSocket.response_of_write (by simp) hc hwr
    | invokes _ _ left =>
      subst left
      simp only [World.start, conns_updateSocket_self] at hwr
      exact hwr
    | pongs _ _ _ rest =>
      have hrest := ih rest
      rw [conns_updateSocket_self] at hrest
      exact ServerSocket.response_of_write (by simp) hc hrest
    | skips _ _ rest =>
      have hrest := ih rest
      rwa [conns_updateSocket_self] at hrest

end World

/-- What an event of a handler makes of its socket. -/
inductive TurnsTo (w : World) (k : SocketId) (s' : ServerSocket) : Event → Prop
  | rejected {chunk : Buffer} {now : ℚ} {error : JsError}
      (thrown : ((w.conns k).codec.push chunk).1 = .error error)
      (handlers : s'.handlers = (w.conns k).handlers ++ [⟨[], 0, .failed⟩]) :
      TurnsTo w k s' (.data k chunk now)
  | received {chunk : Buffer} {now : ℚ} {messages : List JsValue} {x' : Handler}
      (pushed : ((w.conns k).codec.push chunk).1 = .ok messages)
      (handlers : s'.handlers = (w.conns k).handlers ++ [x']) (decoded : x'.messages = messages)
      (stops : x'.Stops w k now 0)
      (destroyed : s'.destroyed = true → (w.conns k).doomed = true ∨ x'.phase = .failed) :
      TurnsTo w k s' (.data k chunk now)
  | thrown {n : ℕ} {returned : Except Thrown JsValue} {now startedAt : ℚ}
      {called : Except JsError Call} {x : Handler} {m : JsValue} {error : JsError}
      (handler : (w.conns k).handlers[n]? = some x) (invoking : x.phase = .invoking startedAt called)
      (message : x.messages[x.next]? = some m)
      (thrown : w.encodeResponse k m (MethodInvoker.outcome called returned) (now - startedAt) =
        .error error)
      (handlers : s'.handlers = (w.conns k).handlers.set n { x with phase := .failed }) :
      TurnsTo w k s' (.settle k n returned now)
  | responded {n : ℕ} {returned : Except Thrown JsValue} {now startedAt : ℚ}
      {called : Except JsError Call} {x : Handler} {m response : JsValue} {payload : Buffer}
      (handler : (w.conns k).handlers[n]? = some x) (invoking : x.phase = .invoking startedAt called)
      (message : x.messages[x.next]? = some m)
      (encoded : w.encodeResponse k m (MethodInvoker.outcome called returned) (now - startedAt) =
        .ok (response, payload))
      (handlers : s'.handlers =
        (w.conns k).handlers.set n { x with phase := .responding (w.conns k).doomed })
      (written : s'.written = (w.conns k).written ++ if (w.conns k).doomed then [] else
        [⟨n, x.next, response, payload, .response (MethodInvoker.outcome called returned)⟩])
      (destroyed : s'.destroyed = true → (w.conns k).doomed = true) :
      TurnsTo w k s' (.settle k n returned now)
  | unwritten {n : ℕ} {now : ℚ} {error : JsError} {x : Handler}
      (handler : (w.conns k).handlers[n]? = some x) (writing : x.writing = true)
      (handlers : s'.handlers = (w.conns k).handlers.set n { x with phase := .failed }) :
      TurnsTo w k s' (.wrote k n (.error error) now)
  | wrote {n : ℕ} {now : ℚ} {x x' : Handler} (handler : (w.conns k).handlers[n]? = some x)
      (writing : x.phase = .responding false ∨ x.phase = .refusing false)
      (handlers : s'.handlers = (w.conns k).handlers.set n x')
      (messages : x'.messages = x.messages) (stops : x'.Stops w k now (x.next + 1))
      (destroyed : s'.destroyed = true → (w.conns k).doomed = true ∨ x'.phase = .failed) :
      TurnsTo w k s' (.wrote k n (.ok ()) now)

/-- The method of a handler has ended, and its outcome is the response `wr`. -/
inductive RespondsIn (w : World) (k : SocketId) (outcome : Except Thrown JsValue) (wr : Write) :
    Event → Prop
  | settled {returned : Except Thrown JsValue} {now startedAt : ℚ} {called : Except JsError Call}
      {x : Handler} {m : JsValue} (handler : (w.conns k).handlers[wr.handler]? = some x)
      (index : wr.index = x.next) (invoking : x.phase = .invoking startedAt called)
      (message : x.messages[x.next]? = some m)
      (ended : outcome = MethodInvoker.outcome called returned)
      (encoded : w.encodeResponse k m outcome (now - startedAt) = .ok (wr.message, wr.payload)) :
      RespondsIn w k outcome wr (.settle k wr.handler returned now)

namespace World
variable {w w' : World} {k : SocketId} {n : ℕ} {now : ℚ}

theorem turnsTo_data {chunk : Buffer} (hd : w.handleData k chunk now = .ok w') :
    TurnsTo w k (w'.conns k) (.data k chunk now) := by
  unfold handleData at hd
  have hreceived : (w.updateSocket k fun s => s.receive chunk).conns k =
      (w.conns k).receive chunk := conns_updateSocket_self w k _
  have hlast := (w.conns k).handlers_receive_last chunk
  cases hp : ((w.conns k).codec.push chunk).1 with
  | error e =>
    simp only [hp] at hd
    rw [hp] at hlast
    refine .rejected hp ?_
    rw [conn_of_fail hd, hreceived]
    change (((w.conns k).receive chunk).setPhase _ .failed).handlers = _
    rw [ServerSocket.handlers_setPhase hlast]
    simp [ServerSocket.receive, Except.toOption]
  | ok messages =>
    simp only [hp] at hd
    rw [hp] at hlast
    obtain ⟨x', hx', hmessages, hstops, hdestroyed⟩ := stops_handleMessages hd
      (hreceived ▸ hlast) rfl rfl
    rw [hreceived] at hx' hdestroyed
    refine .received hp ?_ hmessages (hstops.congr rfl rfl ?_ ?_) hdestroyed
    · rw [hx']
      simp [ServerSocket.receive]
    · rw [hreceived]
      exact RpcCodec.push_config _ _
    · rw [hreceived]
      rfl

/-- Handler `n` fails where it awaits: it is marked, and nothing is written. -/
theorem failed_of_fail {v : World} {x : Handler} {e : JsError} (hfail : v.fail k n e = .ok w')
    (hn : (w.conns k).handlers[n]? = some x)
    (hv : v.conns k = w.conns k ∨ v.conns k = (w.conns k).setPhase n .failed) :
    (w'.conns k).handlers = (w.conns k).handlers.set n { x with phase := .failed } ∧
      (w'.conns k).written = (w.conns k).written := by
  rw [conn_of_fail hfail]
  rcases hv with hv | hv
  · rw [hv]
    exact ⟨ServerSocket.handlers_setPhase hn _, rfl⟩
  · rw [hv]
    refine ⟨?_, rfl⟩
    change (((w.conns k).setPhase n .failed).setPhase n .failed).handlers = _
    rw [ServerSocket.handlers_setPhase ((w.conns k).handlers_setPhase_self .failed hn),
      ServerSocket.handlers_setPhase hn, List.set_set]

/-- The method of a handler has ended: its response cannot be made, or it is written. -/
theorem settle_cases {returned : Except Thrown JsValue}
    (he : ((w.conns k).handlers[n]?.any Handler.invoking) = true)
    (hwf : ∀ x, (w.conns k).handlers[n]? = some x → x.Wf)
    (hs : w.settle k n returned now = .ok w') : ∃ x m startedAt called,
      (w.conns k).handlers[n]? = some x ∧ x.phase = .invoking startedAt called ∧
      x.messages[x.next]? = some m ∧
      ((∃ e, w.encodeResponse k m (MethodInvoker.outcome called returned) (now - startedAt) =
          .error e ∧
        (w'.conns k).handlers = (w.conns k).handlers.set n { x with phase := .failed } ∧
        (w'.conns k).written = (w.conns k).written) ∨
      ∃ response payload,
        w.encodeResponse k m (MethodInvoker.outcome called returned) (now - startedAt) =
          .ok (response, payload) ∧
        w'.conns k = ((w.conns k).write ⟨n, x.next, response, payload,
          .response (MethodInvoker.outcome called returned)⟩).setPhase n
            (.responding (w.conns k).doomed)) := by
  obtain ⟨x, hn, hinvoking⟩ := (Option.any_eq_true _ _).mp he
  obtain ⟨m, hm, -⟩ := (hwf x hn).suspended (Or.inl hinvoking)
  cases hphase : x.phase with
  | running | responding | refusing | done | failed => simp [Handler.invoking, hphase] at hinvoking
  | invoking startedAt called =>
    refine ⟨x, m, startedAt, called, hn, hphase, hm, ?_⟩
    simp only [settle, hn, hphase, hm, respond] at hs
    cases hencoded : w.encodeResponse k m (MethodInvoker.outcome called returned)
        (now - startedAt) with
    | error e =>
      simp only [hencoded] at hs
      refine Or.inl ⟨e, rfl, failed_of_fail hs hn (Or.inr ?_)⟩
      rw [conns_finishRequest, conns_updateSocket_self]
    | ok encoded =>
      obtain ⟨response, payload⟩ := encoded
      simp only [hencoded, Except.ok.injEq] at hs
      subst hs
      exact Or.inr ⟨response, payload, rfl, conns_updateSocket_self w k _⟩

/-- The write of a handler has ended: the handler fails, or it goes on with the next message. -/
theorem wrote_cases {result : Except JsError Unit}
    (he : ((w.conns k).handlers[n]?.any fun x => x.mayEnd result) = true)
    (hw : w.wrote k n result now = .ok w') : ∃ x, (w.conns k).handlers[n]? = some x ∧
      ((∃ e, result = .error e ∧ x.writing = true ∧
        (w'.conns k).handlers = (w.conns k).handlers.set n { x with phase := .failed } ∧
        (w'.conns k).written = (w.conns k).written) ∨
      ∃ v : World, result = .ok () ∧ (x.phase = .responding false ∨ x.phase = .refusing false) ∧
        v.conns k = (w.conns k).advance n ∧ SameServer w v ∧
        handleMessages now k n (x.messages.drop (x.next + 1)) (x.next + 1) v = .ok w') := by
  obtain ⟨x, hn, hmay⟩ := (Option.any_eq_true _ _).mp he
  refine ⟨x, hn, ?_⟩
  cases hphase : x.phase with
  | running | invoking | done | failed => cases result <;> simp [Handler.mayEnd, hphase] at hmay
  | responding doomed =>
    cases result with
    | error e =>
      simp only [wrote, hn, hphase] at hw
      refine Or.inl ⟨e, rfl, by simp only [Handler.writing, hphase],
        failed_of_fail hw hn (Or.inr ?_)⟩
      rw [conns_finishRequest, conns_updateSocket_self]
    | ok u =>
      obtain rfl : doomed = false := by simpa [Handler.mayEnd, hphase] using hmay
      simp only [wrote, hn, hphase] at hw
      refine Or.inr ⟨_, rfl, Or.inl rfl, ?_, sameServer_finishRequest w k _, hw⟩
      rw [conns_finishRequest, conns_updateSocket_self]
  | refusing doomed =>
    cases result with
    | error e =>
      simp only [wrote, hn, hphase] at hw
      exact Or.inl ⟨e, rfl, by simp only [Handler.writing, hphase],
        failed_of_fail hw hn (Or.inl rfl)⟩
    | ok u =>
      obtain rfl : doomed = false := by simpa [Handler.mayEnd, hphase] using hmay
      simp only [wrote, hn, hphase] at hw
      exact Or.inr ⟨_, rfl, Or.inr rfl, conns_updateSocket_self w k _,
        sameServer_updateSocket w k _, hw⟩

theorem turnsTo_settle {returned : Except Thrown JsValue}
    (he : ((w.conns k).handlers[n]?.any Handler.invoking) = true)
    (hwf : ∀ x, (w.conns k).handlers[n]? = some x → x.Wf)
    (hs : w.settle k n returned now = .ok w') :
    TurnsTo w k (w'.conns k) (.settle k n returned now) := by
  obtain ⟨x, m, startedAt, called, hn, hphase, hm, ⟨e, hencoded, hhandlers, -⟩ |
    ⟨response, payload, hencoded, hconn⟩⟩ := settle_cases he hwf hs
  · exact .thrown hn hphase hm hencoded hhandlers
  · rw [hconn]
    refine .responded hn hphase hm hencoded ?_ (ServerSocket.written_write _ _)
      fun hdestroyed => ?_
    · rw [ServerSocket.handlers_setPhase (by rwa [ServerSocket.handlers_write]),
        ServerSocket.handlers_write]
    · rw [← ServerSocket.doomed_write_eq, ServerSocket.doomed]
      exact Bool.or_eq_true_iff.mpr (Or.inl hdestroyed)

theorem turnsTo_wrote {result : Except JsError Unit}
    (he : ((w.conns k).handlers[n]?.any fun x => x.mayEnd result) = true)
    (hw : w.wrote k n result now = .ok w') :
    TurnsTo w k (w'.conns k) (.wrote k n result now) := by
  obtain ⟨x, hn, ⟨e, rfl, hwriting, hhandlers, -⟩ | ⟨v, rfl, hwriting, hconn, hsame, hok⟩⟩ :=
    wrote_cases he hw
  · exact .unwritten hn hwriting hhandlers
  · have hadvance : ((w.conns k).advance n).handlers[n]? =
        some { x with next := x.next + 1, phase := .running } :=
      (w.conns k).handlers_advance_self hn
    obtain ⟨x', hx', hmessages, hstops, hdestroyed⟩ :=
      stops_handleMessages (x := { x with next := x.next + 1, phase := .running }) hok
        (hconn ▸ hadvance) rfl rfl
    rw [hconn, ServerSocket.handlers_advance hn, List.set_set] at hx'
    rw [hconn] at hdestroyed
    exact .wrote hn hwriting hx' hmessages (hstops.congr hsame.state hsame.registry
      (by rw [hconn]; rfl) (by rw [hconn]; rfl)) hdestroyed

theorem responses_data {chunk : Buffer} {wr : Write} {outcome : Except Thrown JsValue}
    (hd : w.handleData k chunk now = .ok w') (hwr : wr ∈ (w'.conns k).written)
    (hc : wr.cause = .response outcome) : wr ∈ (w.conns k).written := by
  have hreceived : (w.updateSocket k fun s => s.receive chunk).conns k =
      (w.conns k).receive chunk := conns_updateSocket_self w k _
  unfold handleData at hd
  cases hp : ((w.conns k).codec.push chunk).1 with
  | error e =>
    simp only [hp] at hd
    rwa [conn_of_fail hd, hreceived] at hwr
  | ok messages =>
    simp only [hp] at hd
    have hold := responses_handleMessages hd hwr hc
    rwa [hreceived] at hold

theorem response_of_settle {returned : Except Thrown JsValue} {wr : Write}
    {outcome : Except Thrown JsValue}
    (he : ((w.conns k).handlers[n]?.any Handler.invoking) = true)
    (hwf : ∀ x, (w.conns k).handlers[n]? = some x → x.Wf)
    (hs : w.settle k n returned now = .ok w') (hwr : wr ∈ (w'.conns k).written)
    (hc : wr.cause = .response outcome) :
    wr ∈ (w.conns k).written ∨ RespondsIn w k outcome wr (.settle k n returned now) := by
  obtain ⟨x, m, startedAt, called, hn, hphase, hm, ⟨e, -, -, hwritten⟩ |
    ⟨response, payload, hencoded, hconn⟩⟩ := settle_cases he hwf hs
  · rw [hwritten] at hwr
    exact Or.inl hwr
  · rw [hconn] at hwr
    change wr ∈ ((w.conns k).write _).written at hwr
    rw [ServerSocket.written_write, List.mem_append] at hwr
    rcases hwr with hwr | hwr
    · exact Or.inl hwr
    · split_ifs at hwr
      · cases hwr
      · obtain rfl := List.mem_singleton.mp hwr
        obtain rfl := Cause.response.inj hc
        exact Or.inr (.settled hn rfl hphase hm rfl hencoded)

theorem responses_wrote {result : Except JsError Unit} {wr : Write}
    {outcome : Except Thrown JsValue}
    (he : ((w.conns k).handlers[n]?.any fun x => x.mayEnd result) = true)
    (hw : w.wrote k n result now = .ok w') (hwr : wr ∈ (w'.conns k).written)
    (hc : wr.cause = .response outcome) : wr ∈ (w.conns k).written := by
  obtain ⟨x, hn, ⟨e, -, -, -, hwritten⟩ | ⟨v, -, -, hconn, -, hok⟩⟩ := wrote_cases he hw
  · rwa [hwritten] at hwr
  · have hold := responses_handleMessages hok hwr hc
    rwa [hconn] at hold

end World

theorem turnsTo_of_step {w w' : World} {e : Event} {k : SocketId} (hs : machine.Step w e w')
    (ht : e.turn = some k) (hrec : (w.conns k).Recorded) : TurnsTo w k (w'.conns k) e := by
  obtain ⟨he, ha⟩ := hs
  cases e with
  | data =>
    obtain rfl := Option.some.inj ht
    exact World.turnsTo_data ha
  | settle =>
    obtain rfl := Option.some.inj ht
    exact World.turnsTo_settle he.2 (fun x hx => hrec.handler _ x hx) ha
  | wrote =>
    obtain rfl := Option.some.inj ht
    exact World.turnsTo_wrote he.2 ha
  | _ => cases ht

/-- A response was there before the event or is that of the method that has ended in it. -/
theorem response_of_step {w w' : World} {e : Event} {k : SocketId} {wr : Write}
    {outcome : Except Thrown JsValue} (hs : machine.Step w e w') (ht : e.turn = some k)
    (hrec : (w.conns k).Recorded) (hwr : wr ∈ (w'.conns k).written)
    (hc : wr.cause = .response outcome) :
    wr ∈ (w.conns k).written ∨ RespondsIn w k outcome wr e := by
  obtain ⟨he, ha⟩ := hs
  cases e with
  | data j chunk now =>
    obtain rfl := Option.some.inj ht
    exact Or.inl (World.responses_data ha hwr hc)
  | settle j n returned now =>
    obtain rfl := Option.some.inj ht
    exact World.response_of_settle he.2 (fun x hx => hrec.handler _ x hx) ha hwr hc
  | wrote j n result now =>
    obtain rfl := Option.some.inj ht
    exact Or.inl (World.responses_wrote he.2 ha hwr hc)
  | _ => cases ht

/-- What threw when the handler failed: the data of the peer, the encoding of an answer, the
response or its log, or a write. -/
inductive FailsIn (w : World) (k : SocketId) (n : ℕ) (x : Handler) : Event → Prop
  | received {chunk : Buffer} {now : ℚ} {error : JsError}
      (new : n = (w.conns k).handlers.length)
      (thrown : ((w.conns k).codec.push chunk).1 = .error error) :
      FailsIn w k n x (.data k chunk now)
  | answered {e : Event} {now : ℚ} {m answer : JsValue} {error : JsError} (turn : e.turn = some k)
      (message : x.messages[x.next]? = some m) (answers : TurnAnswer w now m answer)
      (thrown : (w.conns k).codec.config.encode answer = .error error) : FailsIn w k n x e
  | responded {returned : Except Thrown JsValue} {now startedAt : ℚ}
      {called : Except JsError Call} {y : Handler} {m : JsValue} {error : JsError}
      (handler : (w.conns k).handlers[n]? = some y) (invoking : y.phase = .invoking startedAt called)
      (message : y.messages[y.next]? = some m)
      (thrown : w.encodeResponse k m (MethodInvoker.outcome called returned) (now - startedAt) =
        .error error) : FailsIn w k n x (.settle k n returned now)
  | written {now : ℚ} {error : JsError} {y : Handler}
      (handler : (w.conns k).handlers[n]? = some y) (writing : y.writing = true) :
      FailsIn w k n x (.wrote k n (.error error) now)

theorem Handler.Stops.failed {w : World} {k : SocketId} {now : ℚ} {x : Handler} {i : ℕ}
    (h : x.Stops w k now i) (hf : x.phase = .failed) : ∃ m answer error,
      x.messages[x.next]? = some m ∧ TurnAnswer w now m answer ∧
        (w.conns k).codec.config.encode answer = .error error := by
  cases h with
  | done phase => cases phase.symm.trans hf
  | invokes _ _ _ phase => cases phase.symm.trans hf
  | refuses _ _ _ _ phase => cases phase.symm.trans hf
  | fails message answers thrown => exact ⟨_, _, _, message, answers, thrown⟩

namespace TurnsTo
variable {w : World} {k : SocketId} {s' : ServerSocket} {e : Event} {n : ℕ} {x : Handler}

theorem getElem?_set_some {α : Type} {l : List α} {i j : ℕ} {a b : α}
    (h : (l.set i a)[j]? = some b) : (j = i ∧ b = a) ∨ l[j]? = some b := by
  rw [List.getElem?_set] at h
  split_ifs at h with hij hlt
  · exact Or.inl ⟨hij.symm, (Option.some.inj h).symm⟩
  · exact Or.inr h

theorem getElem?_append_some {α : Type} {l : List α} {j : ℕ} {a b : α}
    (h : (l ++ [a])[j]? = some b) : (j = l.length ∧ b = a) ∨ l[j]? = some b := by
  rw [List.getElem?_append] at h
  split_ifs at h with hlt
  · exact Or.inr h
  · rw [List.getElem?_singleton] at h
    split_ifs at h with hzero
    exact Or.inl ⟨Nat.le_antisymm (Nat.sub_eq_zero_iff_le.mp hzero) (Nat.not_lt.mp hlt),
      (Option.some.inj h).symm⟩

/-- A handler that has failed was so before or has its reason. -/
theorem failed (h : TurnsTo w k s' e) (hx : s'.handlers[n]? = some x) (hf : x.phase = .failed) :
    (w.conns k).handlers[n]? = some x ∨ FailsIn w k n x e := by
  cases h with
  | rejected thrown handlers =>
    rcases getElem?_append_some (handlers ▸ hx) with ⟨hn, -⟩ | hold
    · exact Or.inr (.received hn thrown)
    · exact Or.inl hold
  | received pushed handlers decoded stops =>
    rcases getElem?_append_some (handlers ▸ hx) with ⟨-, rfl⟩ | hold
    · obtain ⟨m, answer, error, hm, hanswers, hthrown⟩ := stops.failed hf
      exact Or.inr (.answered rfl hm hanswers hthrown)
    · exact Or.inl hold
  | thrown handler invoking message thrown handlers =>
    rcases getElem?_set_some (handlers ▸ hx) with ⟨rfl, -⟩ | hold
    · exact Or.inr (.responded handler invoking message thrown)
    · exact Or.inl hold
  | responded handler invoking message encoded handlers =>
    rcases getElem?_set_some (handlers ▸ hx) with ⟨-, rfl⟩ | hold
    · cases hf
    · exact Or.inl hold
  | unwritten handler writing handlers =>
    rcases getElem?_set_some (handlers ▸ hx) with ⟨rfl, -⟩ | hold
    · exact Or.inr (.written handler writing)
    · exact Or.inl hold
  | wrote handler writing handlers messages stops =>
    rcases getElem?_set_some (handlers ▸ hx) with ⟨-, rfl⟩ | hold
    · obtain ⟨m, answer, error, hm, hanswers, hthrown⟩ := stops.failed hf
      exact Or.inr (.answered rfl hm hanswers hthrown)
    · exact Or.inl hold

theorem ended_of_doomed {s : ServerSocket} (ha : s.destroyed = false) (hd : s.doomed = true) :
    s.ended = true := by
  rwa [ServerSocket.doomed, ha, Bool.false_or] at hd

theorem getElem?_set_self_of_some {α : Type} {l : List α} {i : ℕ} {a b : α} (h : l[i]? = some b) :
    (l.set i a)[i]? = some a :=
  List.getElem?_set_self (List.getElem?_eq_some_iff.mp h).1

/-- An event of a handler destroys the socket only if the peer has ended it or a handler fails. -/
theorem destroyed (h : TurnsTo w k s' e) (ha : (w.conns k).destroyed = false)
    (hd : s'.destroyed = true) : (w.conns k).ended = true ∨
      ∃ n x, s'.handlers[n]? = some x ∧ x.phase = .failed ∧ FailsIn w k n x e := by
  cases h with
  | rejected thrown handlers =>
    exact Or.inr ⟨_, _, handlers ▸ List.getElem?_concat_length, rfl, .received rfl thrown⟩
  | @received _ _ _ x' pushed handlers decoded stops destroyed =>
    rcases destroyed hd with hdoomed | hf
    · exact Or.inl (ended_of_doomed ha hdoomed)
    · obtain ⟨m, answer, error, hm, hanswers, hthrown⟩ := stops.failed hf
      exact Or.inr ⟨_, x', handlers ▸ List.getElem?_concat_length, hf,
        .answered rfl hm hanswers hthrown⟩
  | thrown handler invoking message thrown handlers =>
    exact Or.inr ⟨_, _, handlers ▸ getElem?_set_self_of_some handler, rfl,
      .responded handler invoking message thrown⟩
  | responded _ _ _ _ _ _ destroyed => exact Or.inl (ended_of_doomed ha (destroyed hd))
  | unwritten handler writing handlers =>
    exact Or.inr ⟨_, _, handlers ▸ getElem?_set_self_of_some handler, rfl,
      .written handler writing⟩
  | @wrote _ _ _ x' handler writing handlers messages stops destroyed =>
    rcases destroyed hd with hdoomed | hf
    · exact Or.inl (ended_of_doomed ha hdoomed)
    · obtain ⟨m, answer, error, hm, hanswers, hthrown⟩ := stops.failed hf
      exact Or.inr ⟨_, x', handlers ▸ getElem?_set_self_of_some handler, hf,
        .answered rfl hm hanswers hthrown⟩

end TurnsTo

theorem Handler.Stops.not_running {w : World} {k : SocketId} {now : ℚ} {x : Handler} {i : ℕ}
    (h : x.Stops w k now i) : x.phase ≠ .running ∧ ∀ doomed, x.phase ≠ .responding doomed := by
  cases h with
  | done phase => simp [phase]
  | invokes _ _ _ phase => simp [phase]
  | refuses _ _ _ _ phase => simp [phase]
  | fails _ _ _ phase => simp [phase]

theorem Handler.Stops.doomed {w : World} {k : SocketId} {now : ℚ} {x : Handler} {i : ℕ}
    (h : x.Stops w k now i) (hx : x.phase = .refusing true) : (w.conns k).doomed = true := by
  cases h with
  | done phase => cases phase.symm.trans hx
  | invokes _ _ _ phase => cases phase.symm.trans hx
  | refuses _ _ _ _ phase => exact Phase.refusing.inj (phase.symm.trans hx)
  | fails _ _ _ phase => cases phase.symm.trans hx

/-- The handler is new or has moved. -/
theorem TurnsTo.cases {w : World} {k : SocketId} {s' : ServerSocket} {e : Event} {n : ℕ}
    {x : Handler} (h : TurnsTo w k s' e) (hx : s'.handlers[n]? = some x) :
    (w.conns k).handlers[n]? = some x ∨ x.phase = .failed ∨ (∃ now i, x.Stops w k now i) ∨
      ∃ y startedAt called, (w.conns k).handlers[n]? = some y ∧
        y.phase = .invoking startedAt called ∧
          x = { y with phase := .responding (w.conns k).doomed } := by
  cases h with
  | rejected _ handlers =>
    rcases getElem?_append_some (handlers ▸ hx) with ⟨-, rfl⟩ | hold
    · exact Or.inr (Or.inl rfl)
    · exact Or.inl hold
  | received _ handlers _ stops =>
    rcases getElem?_append_some (handlers ▸ hx) with ⟨-, rfl⟩ | hold
    · exact Or.inr (Or.inr (Or.inl ⟨_, _, stops⟩))
    · exact Or.inl hold
  | thrown _ _ _ _ handlers =>
    rcases getElem?_set_some (handlers ▸ hx) with ⟨-, rfl⟩ | hold
    · exact Or.inr (Or.inl rfl)
    · exact Or.inl hold
  | responded handler invoking _ _ handlers =>
    rcases getElem?_set_some (handlers ▸ hx) with ⟨rfl, rfl⟩ | hold
    · exact Or.inr (Or.inr (Or.inr ⟨_, _, _, handler, invoking, rfl⟩))
    · exact Or.inl hold
  | unwritten _ _ handlers =>
    rcases getElem?_set_some (handlers ▸ hx) with ⟨-, rfl⟩ | hold
    · exact Or.inr (Or.inl rfl)
    · exact Or.inl hold
  | wrote _ _ handlers _ stops =>
    rcases getElem?_set_some (handlers ▸ hx) with ⟨-, rfl⟩ | hold
    · exact Or.inr (Or.inr (Or.inl ⟨_, _, stops⟩))
    · exact Or.inl hold

/-- A step of a run that has led to `w`. -/
structure Passed (serializer : Serializer) (w v : World) (e : Event) (v' : World) : Prop where
  before : machine.Reachable (World.init serializer) v
  step : machine.Step v e v'
  after : machine.Reachable v' w

theorem Passed.snoc {serializer : Serializer} {w v v' w' : World} {e e' : Event}
    (h : Passed serializer w v e v') (hs : machine.Step w e' w') : Passed serializer w' v e v' :=
  ⟨h.before, h.step, h.after.snoc hs⟩

/-- What the handlers of a socket wait for, why they wait for nothing any more, and where their
responses come from. -/
structure Accounted (serializer : Serializer) (w : World) (k : SocketId) : Prop where
  rests : ∀ (n : ℕ) (x : Handler), (w.conns k).handlers[n]? = some x → x.phase ≠ .running
  invoked : ∀ (n : ℕ) (x : Handler) doomed, (w.conns k).handlers[n]? = some x →
    x.phase = .responding doomed →
    ∃ v ∈ (w.conns k).invocations, v.handler = n ∧ v.index = x.next
  failed : ∀ (n : ℕ) (x : Handler), (w.conns k).handlers[n]? = some x → x.phase = .failed →
    ∃ v e v', Passed serializer w v e v' ∧ FailsIn v k n x e
  doomed : ∀ (n : ℕ) (x : Handler), (w.conns k).handlers[n]? = some x → x.phase = .refusing true →
    ∃ v e v', Passed serializer w v e v' ∧ e.turn = some k ∧ (v.conns k).doomed = true
  responded : ∀ wr ∈ (w.conns k).written, ∀ outcome, wr.cause = .response outcome →
    ∃ v e v', Passed serializer w v e v' ∧ RespondsIn v k outcome wr e

theorem Accounted.same {serializer : Serializer} {w w' : World} {k : SocketId} {e : Event}
    (h : Accounted serializer w k) (hs : machine.Step w e w')
    (hh : (w'.conns k).handlers = (w.conns k).handlers)
    (hi : (w'.conns k).invocations = (w.conns k).invocations)
    (hw : (w'.conns k).written = (w.conns k).written) : Accounted serializer w' k := by
  refine ⟨hh ▸ h.rests, hh ▸ hi ▸ h.invoked, fun n x hx hf => ?_, fun n x hx hd => ?_,
    fun wr hwr outcome hc => ?_⟩
  · obtain ⟨v, e', v', hpassed, hfails⟩ := h.failed n x (hh ▸ hx) hf
    exact ⟨v, e', v', hpassed.snoc hs, hfails⟩
  · obtain ⟨v, e', v', hpassed, hrest⟩ := h.doomed n x (hh ▸ hx) hd
    exact ⟨v, e', v', hpassed.snoc hs, hrest⟩
  · obtain ⟨v, e', v', hpassed, hresponds⟩ := h.responded wr (hw ▸ hwr) outcome hc
    exact ⟨v, e', v', hpassed.snoc hs, hresponds⟩

theorem invocations_subset {k : SocketId} {w w' : World} (h : Micros k w w') :
    (w.conns k).invocations ⊆ (w'.conns k).invocations := by
  refine h.invariant (I := fun v => (w.conns k).invocations ⊆ (v.conns k).invocations)
    (fun u v hm hu => ?_) (List.Subset.refl _)
  rcases hm.invocations with hsame | ⟨n, x, m, now, -, -, rfl⟩
  · rwa [hsame]
  · simp only [World.start, World.conns_updateSocket_self]
    exact List.Subset.trans hu (List.subset_append_left _ _)

theorem Accounted.turn {serializer : Serializer} {w w' : World} {k : SocketId} {e : Event}
    (h : Accounted serializer w k) (hr : machine.Reachable (World.init serializer) w)
    (hs : machine.Step w e w') (ht : e.turn = some k) (hrec : (w.conns k).Recorded)
    (hin : (w.conns k).invocations ⊆ (w'.conns k).invocations) : Accounted serializer w' k := by
  have hturns := turnsTo_of_step hs ht hrec
  have hpassed : Passed serializer w' w e w' := ⟨hr, hs, .refl _ _⟩
  refine ⟨fun n x hx => ?_, fun n x doomed hx hp => ?_, fun n x hx hf => ?_, fun n x hx hd => ?_,
    fun wr hwr outcome hc => ?_⟩
  · rcases hturns.cases hx with hold | hf | ⟨now, i, hstops⟩ | ⟨y, startedAt, called, -, -, rfl⟩
    · exact h.rests n x hold
    · simp [hf]
    · exact hstops.not_running.1
    · simp
  · rcases hturns.cases hx with hold | hf | ⟨now, i, hstops⟩ | ⟨y, startedAt, called, hy, hph, rfl⟩
    · obtain ⟨v, hv, hrest⟩ := h.invoked n x doomed hold hp
      exact ⟨v, hin hv, hrest⟩
    · cases hf.symm.trans hp
    · exact absurd hp (hstops.not_running.2 doomed)
    · obtain ⟨v, hv, hn, hi, -⟩ := hrec.invoking n y startedAt called hy hph
      exact ⟨v, hin hv, hn, hi⟩
  · rcases hturns.failed hx hf with hold | hfails
    · obtain ⟨v, e', v', hp, hfails⟩ := h.failed n x hold hf
      exact ⟨v, e', v', hp.snoc hs, hfails⟩
    · exact ⟨w, e, w', hpassed, hfails⟩
  · rcases hturns.cases hx with hold | hf | ⟨now, i, hstops⟩ | ⟨y, startedAt, called, -, -, rfl⟩
    · obtain ⟨v, e', v', hp, hrest⟩ := h.doomed n x hold hd
      exact ⟨v, e', v', hp.snoc hs, hrest⟩
    · cases hf.symm.trans hd
    · exact ⟨w, e, w', hpassed, ht, hstops.doomed hd⟩
    · cases hd
  · rcases response_of_step hs ht hrec hwr hc with hold | hresponds
    · obtain ⟨v, e', v', hp, hresponds⟩ := h.responded wr hold outcome hc
      exact ⟨v, e', v', hp.snoc hs, hresponds⟩
    · exact ⟨w, e, w', hpassed, hresponds⟩

theorem accounted_of_new {serializer : Serializer} {w : World} {k : SocketId}
    (hh : (w.conns k).handlers = []) (hw : (w.conns k).written = []) :
    Accounted serializer w k := by
  have hnone : ∀ (n : ℕ) (x : Handler), (w.conns k).handlers[n]? ≠ some x := by
    intro n x hx
    rw [hh] at hx
    simp at hx
  exact ⟨fun n x hx => absurd hx (hnone n x), fun n x _ hx => absurd hx (hnone n x),
    fun n x hx => absurd hx (hnone n x), fun n x hx => absurd hx (hnone n x),
    fun wr hwr => absurd (hw ▸ hwr) List.not_mem_nil⟩

/-- Between the events no handler is in a turn, each that has failed has its reason, and each
response is that of the event in which its method ended. -/
theorem accounted_of_reachable {serializer : Serializer} {w : World}
    (h : machine.Reachable (World.init serializer) w) :
    ∀ k < w.nextSocket, Accounted serializer w k := by
  refine (h.invariant (I := fun v => machine.Reachable (World.init serializer) v ∧
    ∀ k < v.nextSocket, Accounted serializer v k) ?_
    ⟨.refl _ _, fun k hk => absurd hk (Nat.not_lt_zero k)⟩).2
  intro v e v' ⟨hr, hall⟩ hs
  refine ⟨hr.snoc hs, fun k hk => ?_⟩
  have ha := answer_of_step hs
  by_cases hlt : k < v.nextSocket
  · rcases ha.conn k with ⟨ht, hrun⟩ | ⟨ended, destroyed, closed, -, he⟩ | ⟨rfl, -⟩
    · exact (hall k hlt).turn hr hs ht (Reachable.recorded ⟨serializer, hr⟩ k hlt)
        (invocations_subset hrun)
    · exact (hall k hlt).same hs (by rw [he]) (by rw [he]) (by rw [he])
    · exact absurd hlt (Nat.lt_irrefl _)
  · rcases ha.nextSocket with hn | ⟨hn, n, codec, -, -, he⟩
    · exact absurd (hn ▸ hk) hlt
    · rw [hn] at hk
      obtain rfl : k = v.nextSocket :=
        Nat.le_antisymm (Nat.le_of_lt_succ hk) (Nat.not_lt.mp hlt)
      exact accounted_of_new (by rw [he]; rfl) (by rw [he]; rfl)

end WeisleyRpc.Server
