import SteamWire.Data.Cycle
import SteamWire.Semantics.Run

/-!
# Lists of servers

The clones of a server list share two cyclic iterators, and every call advances one of them,
also those that only list the servers. A listing takes a full round, so that it leaves no
trace: every call returns, and the servers are picked in turn whatever is called in between
(`ServerLists.roundRobin_of_namesClones`).
-/

namespace SteamWire

open Semantics

/-- The errors of `ServerList::new`. -/
inductive ServerDiscoveryError where
  | noServers
  | noWsServers
  deriving DecidableEq, Repr

/-- What the clones of a list share, each iterator behind its lock. -/
structure SharedServers (SocketAddr : Type*) where
  tcpServers : Cycle SocketAddr
  wsServers : Cycle String
  deriving DecidableEq

/-- What each clone has by itself. -/
structure ServerList where
  tcpCount : Nat
  wsCount : Nat
  deriving DecidableEq, Repr

/-- The calls on a list. -/
inductive ServerCall where
  | pick
  | pickWs
  | tcpServers
  | wsServers
  deriving DecidableEq, Repr

/-- What the calls return. -/
inductive ServerReturn (SocketAddr : Type*) where
  | addr (addr : SocketAddr)
  | url (url : String)
  | addrs (addrs : List SocketAddr)
  | servers (servers : List String)
  deriving DecidableEq, Repr

/-- The URL of a WebSocket server. -/
def cmSocketUrl (addr : String) : String := s!"wss://{addr}/cmsocket/"

section Calls

variable {SocketAddr : Type*}

namespace ServerList

def new (tcpServers : List SocketAddr) (wsServers : List String) :
    Except ServerDiscoveryError (ServerList × SharedServers SocketAddr) :=
  if tcpServers = [] then .error .noServers
  else if wsServers = [] then .error .noWsServers
  else .ok ({ tcpCount := tcpServers.length, wsCount := wsServers.length },
    { tcpServers := .ofList tcpServers, wsServers := .ofList wsServers })

end ServerList

namespace SharedServers

/-- `none` if the `unwrap` panics. -/
def pick (s : SharedServers SocketAddr) : Option SocketAddr × SharedServers SocketAddr :=
  let (addr, tcpServers) := s.tcpServers.next
  (addr, { s with tcpServers })

/-- `none` if the `unwrap` panics. -/
def pickWs (s : SharedServers SocketAddr) : Option String × SharedServers SocketAddr :=
  let (addr, wsServers) := s.wsServers.next
  (addr.map cmSocketUrl, { s with wsServers })

end SharedServers

namespace ServerList

def tcpServers (list : ServerList) (s : SharedServers SocketAddr) :
    List SocketAddr × SharedServers SocketAddr :=
  let (servers, tcpServers) := takeFromIter Cycle.next list.tcpCount s.tcpServers
  (servers, { s with tcpServers })

def wsServers (list : ServerList) (s : SharedServers SocketAddr) :
    List String × SharedServers SocketAddr :=
  let (servers, wsServers) := takeFromIter Cycle.next list.wsCount s.wsServers
  (servers, { s with wsServers })

/-- A call on a clone, under the lock it takes. -/
def call (list : ServerList) (s : SharedServers SocketAddr) :
    ServerCall → Option (ServerReturn SocketAddr) × SharedServers SocketAddr
  | .pick => (s.pick.1.map .addr, s.pick.2)
  | .pickWs => (s.pickWs.1.map .url, s.pickWs.2)
  | .tcpServers => (some (.addrs (list.tcpServers s).1), (list.tcpServers s).2)
  | .wsServers => (some (.servers (list.wsServers s).1), (list.wsServers s).2)

end ServerList

/-- The clones of a list, and what the calls on them have returned so far. -/
structure ServerLists (SocketAddr : Type*) where
  shared : SharedServers SocketAddr
  clones : List ServerList
  returned : List (Option (ServerReturn SocketAddr)) := []
  deriving DecidableEq

/-- A clone is made, or called. -/
inductive ServerAction where
  | clone (i : Nat)
  | call (i : Nat) (c : ServerCall)
  deriving DecidableEq, Repr

/-- The calls that an action makes. -/
def ServerAction.calls : ServerAction → List ServerCall
  | .clone _ => []
  | .call _ c => [c]

/-- The actions name clones that exist when it is their turn; at first there are `n`. -/
def NamesClones : Nat → List ServerAction → Prop
  | _, [] => True
  | n, .clone i :: w => i < n ∧ NamesClones (n + 1) w
  | n, .call i _ :: w => i < n ∧ NamesClones n w

namespace ServerLists

def step (s : ServerLists SocketAddr) : ServerAction → Option (ServerLists SocketAddr)
  | .clone i => s.clones[i]?.map fun list => { s with clones := s.clones ++ [list] }
  | .call i c => s.clones[i]?.map fun list =>
      { s with
        shared := (list.call s.shared c).2
        returned := s.returned ++ [(list.call s.shared c).1] }

end ServerLists

/-- What a call promises to return after so many picks of either kind. -/
def promisedReturn (tcp : List SocketAddr) (ws : List String) (picks picksWs : Nat) :
    ServerCall → Option (ServerReturn SocketAddr)
  | .pick => tcp[picks % tcp.length]?.map .addr
  | .pickWs => (ws[picksWs % ws.length]?.map cmSocketUrl).map .url
  | .tcpServers => some (.addrs (tcp.rotate picks))
  | .wsServers => some (.servers (ws.rotate picksWs))

/-- Every call has returned, and what it promises: only the picks before it count, and only those
of its kind. -/
structure RoundRobin (tcp : List SocketAddr) (ws : List String) (calls : List ServerCall)
    (returned : List (Option (ServerReturn SocketAddr))) : Prop where
  length_eq : returned.length = calls.length
  isSome : ∀ ret ∈ returned, ret.isSome
  returns : ∀ u call v, calls = u ++ call :: v →
    returned[u.length]? = some (promisedReturn tcp ws (u.count .pick) (u.count .pickWs) call)

variable {tcp : List SocketAddr} {ws : List String} {calls : List ServerCall}
  {returned : List (Option (ServerReturn SocketAddr))}

theorem RoundRobin.nil : RoundRobin tcp ws [] [] where
  length_eq := rfl
  isSome := nofun
  returns u call v h := by simp at h

/-- One more call that returns what it promises. -/
theorem RoundRobin.concat {call : ServerCall} {ret : Option (ServerReturn SocketAddr)}
    (h : RoundRobin tcp ws calls returned) (hsome : ret.isSome)
    (hret : ret = promisedReturn tcp ws (calls.count .pick) (calls.count .pickWs) call) :
    RoundRobin tcp ws (calls ++ [call]) (returned ++ [ret]) where
  length_eq := by simp [h.length_eq]
  isSome ret' hmem := by
    rcases List.mem_append.mp hmem with hold | hlast
    · exact h.isSome ret' hold
    · rwa [List.mem_singleton.mp hlast]
  returns u call' v hcalls := by
    rcases List.eq_nil_or_concat v with rfl | ⟨v, last, rfl⟩
    · -- the last call
      obtain ⟨rfl, hlast⟩ := List.append_inj' hcalls rfl
      obtain rfl := List.head_eq_of_cons_eq hlast
      rw [← h.length_eq, List.getElem?_concat_length, hret]
    · rw [List.concat_eq_append, ← List.cons_append, ← List.append_assoc] at hcalls
      obtain ⟨rfl, -⟩ := List.append_inj' hcalls rfl
      rw [List.getElem?_append_left (by rw [h.length_eq]; simp)]
      exact h.returns u call' v rfl

/-- Where the iterators are after some calls, and what these returned. -/
structure ServerLists.InTurn (tcp : List SocketAddr) (ws : List String) (calls : List ServerCall)
    (s : ServerLists SocketAddr) : Prop where
  tcpAt : Cycle.At tcp (calls.count .pick) s.shared.tcpServers
  wsAt : Cycle.At ws (calls.count .pickWs) s.shared.wsServers
  clones : ∀ list ∈ s.clones, list = { tcpCount := tcp.length, wsCount := ws.length }
  returned : RoundRobin tcp ws calls s.returned

/-- A call returns what it promises, and advances one iterator by a pick or by full rounds. -/
theorem ServerList.call_eq {s : SharedServers SocketAddr} {k l : Nat} (htcp : tcp ≠ [])
    (hws : ws ≠ []) (htcpAt : Cycle.At tcp k s.tcpServers) (hwsAt : Cycle.At ws l s.wsServers)
    (call : ServerCall) :
    let list : ServerList := { tcpCount := tcp.length, wsCount := ws.length }
    (list.call s call).1 = promisedReturn tcp ws k l call ∧
      (list.call s call).1.isSome ∧
      Cycle.At tcp (k + [call].count .pick) (list.call s call).2.tcpServers ∧
      Cycle.At ws (l + [call].count .pickWs) (list.call s call).2.wsServers := by
  intro list
  cases call with
  | pick =>
    obtain ⟨c, hnext, hc⟩ := htcpAt.next htcp
    have hlt : k % tcp.length < tcp.length := Nat.mod_lt _ (List.length_pos_iff.mpr htcp)
    refine ⟨?_, ?_, ?_, hwsAt⟩
    · simp [call, SharedServers.pick, hnext, promisedReturn]
    · simp [call, SharedServers.pick, hnext, hlt]
    · simpa [call, SharedServers.pick, hnext] using hc
  | pickWs =>
    obtain ⟨c, hnext, hc⟩ := hwsAt.next hws
    have hlt : l % ws.length < ws.length := Nat.mod_lt _ (List.length_pos_iff.mpr hws)
    refine ⟨?_, ?_, htcpAt, ?_⟩
    · simp [call, SharedServers.pickWs, hnext, promisedReturn]
    · simp [call, SharedServers.pickWs, hnext, hlt]
    · simpa [call, SharedServers.pickWs, hnext] using hc
  | tcpServers =>
    -- a full round comes back to where it started
    obtain ⟨c, htake, hc⟩ := htcpAt.take_length htcp
    refine ⟨?_, rfl, ?_, hwsAt⟩
    · simp [call, ServerList.tcpServers, list, htake, promisedReturn]
    · simpa [call, ServerList.tcpServers, list, htake] using hc
  | wsServers =>
    obtain ⟨c, htake, hc⟩ := hwsAt.take_length hws
    refine ⟨?_, rfl, htcpAt, ?_⟩
    · simp [call, ServerList.wsServers, list, htake, promisedReturn]
    · simpa [call, ServerList.wsServers, list, htake] using hc

section Run

variable {s : ServerLists SocketAddr} {i : Nat}

/-- Making a clone returns, and keeps the servers in turn. -/
theorem ServerLists.InTurn.clone (hs : InTurn tcp ws calls s) (hi : i < s.clones.length) :
    ∃ t, s.step (.clone i) = some t ∧ InTurn tcp ws calls t ∧
      t.clones.length = s.clones.length + 1 := by
  refine ⟨{ s with clones := s.clones ++ [s.clones[i]] }, ?_, { hs with clones := ?_ }, ?_⟩
  · rw [step, List.getElem?_eq_getElem hi, Option.map_some]
  · intro list hmem
    rcases List.mem_append.mp hmem with hold | hlast
    · exact hs.clones list hold
    · rw [List.mem_singleton.mp hlast]
      exact hs.clones _ (List.getElem_mem hi)
  · exact List.length_append

/-- A call on a clone returns, and keeps the servers in turn. -/
theorem ServerLists.InTurn.call (htcp : tcp ≠ []) (hws : ws ≠ []) (hs : InTurn tcp ws calls s)
    (hi : i < s.clones.length) (c : ServerCall) :
    ∃ t, s.step (.call i c) = some t ∧ InTurn tcp ws (calls ++ [c]) t ∧
      t.clones.length = s.clones.length := by
  obtain ⟨hret, hsome, htcpAt, hwsAt⟩ := ServerList.call_eq htcp hws hs.tcpAt hs.wsAt c
  rw [← List.count_append] at htcpAt hwsAt
  have hclone : s.clones[i]? = some { tcpCount := tcp.length, wsCount := ws.length } := by
    rw [List.getElem?_eq_getElem hi, hs.clones _ (List.getElem_mem hi)]
  refine ⟨_, congrArg (Option.map _) hclone, ?_, rfl⟩
  exact {
    tcpAt := htcpAt
    wsAt := hwsAt
    clones := hs.clones
    returned := hs.returned.concat hsome hret }

/-- A run that names clones that exist comes to its end, and keeps the servers in turn. -/
theorem ServerLists.InTurn.exists_run (htcp : tcp ≠ []) (hws : ws ≠ []) {w : List ServerAction}
    (hs : InTurn tcp ws calls s) (hw : NamesClones s.clones.length w) :
    ∃ t, run ServerLists.step s w = some t ∧
      InTurn tcp ws (calls ++ w.flatMap ServerAction.calls) t := by
  induction w generalizing s calls with
  | nil => exact ⟨s, rfl, by simpa using hs⟩
  | cons a w ih =>
    cases a with
    | clone i =>
      obtain ⟨hi, hw⟩ := hw
      obtain ⟨t, hstep, ht, hlen⟩ := hs.clone hi
      obtain ⟨u, hrun, hu⟩ := ih ht (by rwa [hlen])
      exact ⟨u, run_cons_eq_some.mpr ⟨t, hstep, hrun⟩, hu⟩
    | call i c =>
      obtain ⟨hi, hw⟩ := hw
      obtain ⟨t, hstep, ht, hlen⟩ := hs.call htcp hws hi c
      obtain ⟨u, hrun, hu⟩ := ih ht (by rwa [hlen])
      rw [List.append_assoc] at hu
      exact ⟨u, run_cons_eq_some.mpr ⟨t, hstep, hrun⟩, hu⟩

end Run

/-- Server rotation is a round robin that listings do not disturb: every sequence of calls on
any clones comes to its end, and every call in it has returned what it promises. -/
theorem ServerLists.roundRobin_of_namesClones (htcp : tcp ≠ []) (hws : ws ≠ []) :
    ∃ list shared, ServerList.new tcp ws = .ok (list, shared) ∧
      ∀ w : List ServerAction, NamesClones 1 w →
        ∃ s, run ServerLists.step { shared, clones := [list] } w = some s ∧
          RoundRobin tcp ws (w.flatMap ServerAction.calls) s.returned := by
  refine ⟨_, _, by rw [ServerList.new, if_neg htcp, if_neg hws], fun w hw => ?_⟩
  have hinit : ServerLists.InTurn tcp ws []
      { shared := { tcpServers := .ofList tcp, wsServers := .ofList ws }
        clones := [{ tcpCount := tcp.length, wsCount := ws.length }] } := {
    tcpAt := .ofList tcp
    wsAt := .ofList ws
    clones := fun list hmem => List.mem_singleton.mp hmem
    returned := .nil }
  obtain ⟨s, hrun, hs⟩ := hinit.exists_run htcp hws hw
  exact ⟨s, hrun, hs.returned⟩

/-- The rotation of two servers and three WebSocket servers, over a list and a clone of it. -/
theorem ServerLists.roundRobin_twoServers :
    ∃ list shared, ServerList.new ["127.0.0.1:1234", "127.0.0.2:2345"]
        ["server1:1234", "server2", "server3"] = .ok (list, shared) ∧
      ∃ s, run ServerLists.step { shared, clones := [list] }
          [.call 0 .pick, .clone 0, .call 1 .tcpServers, .call 1 .pick, .call 0 .pickWs,
            .call 1 .wsServers, .call 0 .pick] = some s ∧
        RoundRobin ["127.0.0.1:1234", "127.0.0.2:2345"] ["server1:1234", "server2", "server3"]
          [.pick, .tcpServers, .pick, .pickWs, .wsServers, .pick] s.returned := by
  obtain ⟨list, shared, hnew, hruns⟩ := @roundRobin_of_namesClones String
    ["127.0.0.1:1234", "127.0.0.2:2345"] ["server1:1234", "server2", "server3"] (by decide)
    (by decide)
  exact ⟨list, shared, hnew, hruns _ (by simp [NamesClones])⟩

end Calls

end SteamWire
