import ChatServer.Http.Dump
import ChatServer.Http.HttpConnectionPool

/-!
# What is left of the timeout of a request

`HttpConnection::DoRequest` from the address on, and `HttpConnectionPool::doRequest`. The time
that connecting took is taken off `timeout_ms` in 64 bits without a sign, and what comes out is the
receive timeout of the socket.
-/

namespace ChatServer.Http

set_option autoImplicit false

open ChatServer.Http2 (ascii)

inductive HttpResultError where
  | ok
  | invalidUrl
  | invalidHost
  | connectFail
  | sendCloseByPeer
  | sendSocketError
  | timeout
  | createSocketError
  | poolGetConnection
  | poolInvalidConnection
  deriving DecidableEq

structure HttpResult where
  result : HttpResultError
  response : Option HttpResponse
  error : Str
  deriving DecidableEq

structure Exchange where
  result : HttpResult
  recvTimeout : Option UInt64
  deriving DecidableEq

/-- What a request meets: whether there is a socket, whether it connects, the clock before and
behind that, and what comes of writing and reading. -/
structure SocketEnv where
  created : Bool
  ts1 : UInt64
  connect : Bool
  ts2 : UInt64
  writeFixSize : Str → Int
  recvResponse : Option HttpResponse
  errno : Nat
  strerror : Str
  remoteAddress : Str

structure PoolEnv extends SocketEnv where
  nowMs : UInt64
  checkConnected : Nat → Bool
  lookupAnyIPAddress : Bool
  getSocket : Bool

namespace SocketEnv

def errorText (env : SocketEnv) : Str :=
  ascii " errno=" ++ decimal env.errno ++ ascii " errstr=" ++ env.strerror

/-- `DoRequest(req, sock, timeout_ms)`; the pool goes on in the same way. -/
def doRequestOn (env : SocketEnv) (request : WrittenRequest) (timeoutMs : UInt64) : Exchange :=
  let rt := env.writeFixSize request.dump
  { recvTimeout := some timeoutMs
    result :=
      if rt = 0 then
        ⟨.sendCloseByPeer, none, ascii "send request closed by peer: " ++ env.remoteAddress⟩
      else if rt < 0 then
        ⟨.sendSocketError, none, ascii "send request socket error" ++ env.errorText⟩
      else match env.recvResponse with
        | none => ⟨.timeout, none, ascii "recv response timeout: " ++ env.remoteAddress ++
            ascii " timeout_ms:" ++ decimal timeoutMs.toNat⟩
        | some response => ⟨.ok, some response, ascii "ok"⟩ }

def doRequest (env : SocketEnv) (request : WrittenRequest) (addr : Str) (timeoutMs : UInt64) :
    Exchange :=
  if !env.created then
    ⟨⟨.createSocketError, none,
      ascii "create socket fail: " ++ addr ++ env.errorText⟩, none⟩
  else if !env.connect then ⟨⟨.connectFail, none, ascii "connect fail: " ++ addr⟩, none⟩
  else env.doRequestOn request (timeoutMs - (env.ts2 - env.ts1))

def took (env : SocketEnv) : Nat := env.ts2.toNat - env.ts1.toNat

end SocketEnv

namespace HttpConnectionPool

/-- What `getConnection` returns, and what it leaves of `timeout_ms`. -/
def connectionFor (config : PoolConfig) (pool : HttpConnectionPool) (env : PoolEnv)
    (timeoutMs : UInt64) : Option Nat × UInt64 :=
  match (takeIdle config pool.objects env.nowMs env.checkConnected pool.conns).2.1 with
  | some ptr => (some ptr, timeoutMs)
  | none =>
      if env.lookupAnyIPAddress && env.created && env.connect then
        (some pool.created, timeoutMs - (env.ts2 - env.ts1))
      else (none, timeoutMs)

/-- `doRequest(req, timeout_ms)` of a pool for the port of a host. -/
def doRequest (config : PoolConfig) (pool : HttpConnectionPool) (env : PoolEnv) (host : Str)
    (port : UInt32) (request : WrittenRequest) (timeoutMs : UInt64) : Exchange :=
  let place := ascii "pool host:" ++ host ++ ascii " port:" ++ decimal port.toNat
  match pool.connectionFor config env timeoutMs with
  | (none, _) => ⟨⟨.poolGetConnection, none, place⟩, none⟩
  | (some _, timeoutMs) =>
      if !env.getSocket then ⟨⟨.poolInvalidConnection, none, place⟩, none⟩
      else env.doRequestOn request timeoutMs

/-- The pool has a connection that `getConnection` takes for valid. -/
def hasIdle (config : PoolConfig) (pool : HttpConnectionPool) (env : PoolEnv) : Bool :=
  pool.conns.any fun conn =>
    !(env.nowMs < (pool.objects conn).createTime + config.maxAliveTime.toUInt64 ||
      !env.checkConnected conn)

def callSteps (config : PoolConfig) (pool : HttpConnectionPool) (env : PoolEnv)
    (timeoutMs : UInt64) : List PoolAction :=
  .getConnection timeoutMs env.nowMs env.checkConnected :: .discard pool.tasks.length ::
    if pool.hasIdle config env then []
    else [.connect pool.tasks.length
      (if env.lookupAnyIPAddress && env.created && env.connect then some (env.ts2 - env.ts1)
      else none)]

def took (config : PoolConfig) (pool : HttpConnectionPool) (env : PoolEnv) : Nat :=
  if pool.hasIdle config env then 0 else env.toSocketEnv.took

end HttpConnectionPool

/-- At most what was given is used, and nothing if connecting took as long. -/
def Remains (timeoutMs : UInt64) (took : Nat) (used : Option UInt64) : Prop :=
  ∀ left ∈ used, left ≤ timeoutMs ∧ (timeoutMs.toNat ≤ took → left = 0)

theorem remains_sub_iff (timeoutMs ts1 ts2 : UInt64) :
    Remains timeoutMs (ts2.toNat - ts1.toNat) (some (timeoutMs - (ts2 - ts1))) ↔
      ts2 - ts1 ≤ timeoutMs := by
  have bound := timeoutMs.toNat_lt
  have first := ts1.toNat_lt
  have second := ts2.toNat_lt
  have elapsed := UInt64.toNat_sub ts2 ts1
  have left := UInt64.toNat_sub timeoutMs (ts2 - ts1)
  rw [UInt64.le_iff_toNat_le]
  constructor
  · intro remains
    have small := UInt64.le_iff_toNat_le.mp (remains _ rfl).1
    omega
  · intro enough left' same
    rw [← Option.some.inj same, UInt64.le_iff_toNat_le]
    refine ⟨by omega, ?_⟩
    intro long
    apply UInt64.toNat.inj
    change _ = 0
    omega

theorem remains_none (timeoutMs : UInt64) (took : Nat) : Remains timeoutMs took none := by
  intro left impossible
  cases impossible

theorem remains_untouched (timeoutMs : UInt64) : Remains timeoutMs 0 (some timeoutMs) := by
  intro left same
  rw [← Option.some.inj same]
  refine ⟨UInt64.le_refl timeoutMs, ?_⟩
  intro none_given
  exact UInt64.toNat.inj (Nat.le_zero.mp none_given)

theorem do_request_remains_iff (env : SocketEnv) (request : WrittenRequest) (addr : Str)
    (timeoutMs : UInt64) :
    Remains timeoutMs env.took (env.doRequest request addr timeoutMs).recvTimeout ↔
      (env.created = true → env.connect = true → env.ts2 - env.ts1 ≤ timeoutMs) := by
  rw [SocketEnv.doRequest]
  cases env.created with
  | false => simp [remains_none]
  | true =>
      cases env.connect with
      | false => simp [remains_none]
      | true =>
          have enough := remains_sub_iff timeoutMs env.ts1 env.ts2
          constructor
          · intro remains _ _
            exact enough.mp remains
          · intro within
            exact enough.mpr (within rfl rfl)

namespace HttpConnectionPool

variable {config : PoolConfig} {pool last : HttpConnectionPool} {env : PoolEnv}

theorem take_idle_some (config : PoolConfig) (objects : Nat → PooledConnection)
    (nowMs : UInt64) (checkConnected : Nat → Bool) (conns : List Nat) :
    (takeIdle config objects nowMs checkConnected conns).2.1.isSome = conns.any fun conn =>
      !(nowMs < (objects conn).createTime + config.maxAliveTime.toUInt64 ||
        !checkConnected conn) := by
  rw [take_idle_eq, List.isSome_find?]
  rfl

theorem connection_for_idle (timeoutMs : UInt64) (idle : pool.hasIdle config env = true) :
    ∃ ptr, pool.connectionFor config env timeoutMs = (some ptr, timeoutMs) := by
  rw [hasIdle, ← take_idle_some] at idle
  rcases Option.isSome_iff_exists.mp idle with ⟨ptr, found⟩
  refine ⟨ptr, ?_⟩
  rw [connectionFor, found]

theorem connection_for_busy (timeoutMs : UInt64) (busy : pool.hasIdle config env = false) :
    pool.connectionFor config env timeoutMs =
      if env.lookupAnyIPAddress && env.created && env.connect then
        (some pool.created, timeoutMs - (env.ts2 - env.ts1))
      else (none, timeoutMs) := by
  rw [hasIdle, ← take_idle_some, Option.isSome_eq_false_iff, Option.isNone_iff_eq_none] at busy
  rw [connectionFor, busy]

theorem replace_last (tasks more : List PoolTask) (task : PoolTask) :
    TaskPool.replace (tasks ++ [task]) tasks.length more = tasks ++ more := by
  rw [TaskPool.replace, List.eraseIdx_append_of_length_le (Nat.le_refl _), Nat.sub_self]
  simp

theorem connect_returned {place : Nat} {timeoutMs : UInt64} {elapsed : Option UInt64}
    (found : pool.tasks[place]? = some (.connecting timeoutMs))
    (taken : pool.step config (.connect place elapsed) = some last) :
    last.returned = pool.returned ++ [match elapsed with
      | none => (none, timeoutMs)
      | some elapsed => (some pool.created, timeoutMs - elapsed)] := by
  rw [step, found] at taken
  dsimp only at taken
  split at taken
  · cases taken
  · rw [← Option.some.inj taken]
    cases elapsed with
    | none => rfl
    | some elapsed => rfl

/-- The steps of the pool add to what was returned just what the call returns. -/
theorem call_steps_returned (timeoutMs : UInt64)
    (ran : Transition.Runs (step config) (fun _ _ => True) pool
      (pool.callSteps config env timeoutMs) last) :
    last.returned = pool.returned ++ [pool.connectionFor config env timeoutMs] := by
  have idle := take_idle_some config pool.objects env.nowMs env.checkConnected pool.conns
  rcases ran with ⟨_, middle, first, _, later, second, rest⟩
  rw [step, getConnection] at first
  rw [connectionFor]
  rcases taken : takeIdle config pool.objects env.nowMs env.checkConnected pool.conns with
    ⟨invalid, ptr, left⟩
  rw [taken] at first idle
  rw [← Option.some.inj first, step] at second
  dsimp only at second idle
  rw [List.getElem?_concat_length] at second
  have discarded := Option.some.inj second
  rw [← hasIdle] at idle
  rw [← idle] at rest
  cases ptr with
  | some ptr =>
      cases rest
      rw [← discarded]
      rfl
  | none =>
      rcases rest with ⟨_, final, third, same⟩
      rw [discard, replace_last] at discarded
      rw [← discarded] at third
      rw [← same, connect_returned List.getElem?_concat_length third]
      cases env.lookupAnyIPAddress && env.created && env.connect with
      | false => rfl
      | true => rfl

theorem do_request_remains_iff (config : PoolConfig) (pool : HttpConnectionPool) (env : PoolEnv)
    (host : Str) (port : UInt32) (request : WrittenRequest) (timeoutMs : UInt64) :
    Remains timeoutMs (pool.took config env)
        (pool.doRequest config env host port request timeoutMs).recvTimeout ↔
      (pool.hasIdle config env = false → env.lookupAnyIPAddress = true → env.created = true →
        env.connect = true → env.getSocket = true → env.ts2 - env.ts1 ≤ timeoutMs) := by
  rw [doRequest, took]
  cases idle : pool.hasIdle config env with
  | true =>
      rcases connection_for_idle timeoutMs idle with ⟨ptr, found⟩
      rw [found]
      cases env.getSocket with
      | false => simp [remains_none]
      | true => simp [SocketEnv.doRequestOn, remains_untouched]
  | false =>
      rw [connection_for_busy timeoutMs idle]
      cases env.lookupAnyIPAddress with
      | false => simp [remains_none]
      | true =>
          cases env.created with
          | false => simp [remains_none]
          | true =>
              cases env.connect with
              | false => simp [remains_none]
              | true =>
                  cases env.getSocket with
                  | false => simp [remains_none]
                  | true =>
                      have enough := remains_sub_iff timeoutMs env.ts1 env.ts2
                      constructor
                      · intro remains _ _ _ _ _
                        exact enough.mp remains
                      · intro within
                        exact enough.mpr (within rfl rfl rfl rfl rfl)

end HttpConnectionPool

/-- A request to an address and one to a pool keep to their timeout just if connecting, where it
comes to that, takes no longer. -/
theorem request_timeout_iff (env : PoolEnv) (request : WrittenRequest) (timeoutMs : UInt64) :
    (∀ addr, Remains timeoutMs env.toSocketEnv.took
        (env.toSocketEnv.doRequest request addr timeoutMs).recvTimeout ↔
      (env.created = true → env.connect = true → env.ts2 - env.ts1 ≤ timeoutMs)) ∧
    ∀ config (pool : HttpConnectionPool) host port, Remains timeoutMs (pool.took config env)
        (pool.doRequest config env host port request timeoutMs).recvTimeout ↔
      (pool.hasIdle config env = false → env.lookupAnyIPAddress = true → env.created = true →
        env.connect = true → env.getSocket = true → env.ts2 - env.ts1 ≤ timeoutMs) := by
  constructor
  · intro addr
    exact do_request_remains_iff env.toSocketEnv request addr timeoutMs
  · intro config pool host port
    exact HttpConnectionPool.do_request_remains_iff config pool env host port request timeoutMs

/-- With 100 ms given and 101 ms taken, the receive timeout is half a billion years. -/
theorem short_timeout_wrapped :
    let env : SocketEnv :=
      ⟨true, 1000, true, 1101, fun text => text.length, none, 0, [], ascii "10.0.0.1:80"⟩
    (env.doRequest {} (ascii "10.0.0.1:80") 100).recvTimeout = some 18446744073709551615 ∧
      ¬Remains 100 env.took (env.doRequest {} (ascii "10.0.0.1:80") 100).recvTimeout := by
  intro env
  have wrapped : (100 : UInt64) - (1101 - 1000) = 18446744073709551615 := by decide +kernel
  have used : (env.doRequest {} (ascii "10.0.0.1:80") 100).recvTimeout =
      some 18446744073709551615 := congrArg Option.some wrapped
  refine ⟨used, ?_⟩
  rw [used]
  intro remains
  exact absurd (remains _ rfl).1 (by decide +kernel)

end ChatServer.Http
