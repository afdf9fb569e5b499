import NgxWasm.Balancer.Peers
import NgxWasm.Config.Blocks

/-!
# The connections of an upstream

For each request of an upstream with a balancer, `upstream_init_peer` puts the module's data around
nginx's own, so that `upstream_get_peer` and `upstream_free_peer` are called in the place of nginx's
functions. A peer counts its connections in `conns`, which all requests of all workers share;
`max_conns` limits them. The module counts a connection itself for a peer the guest has selected,
and leaves it to nginx to take it back, as it leaves nginx to do both when the guest selects none.

nginx's functions are parameters. `RoundRobin` is what the module relies on: that they count one
connection for the peer they leave in `current`, within its limit, and take it back. Each call is
one turn, since it works under the lock of the peers. Others may change the peers between two turns,
but for their counts and limits.

* `counts_select`: a peer that the guest selects counts one connection more.
* `getPeer_got`: a call of the wrapper counts a connection for one peer with room, or changes
  nothing.
* `connections_counted`: with any number of requests at any stage, each peer counts exactly the
  requests that are connected to it, and never more than its limit.

The counts are words, as in the source. With a limit a peer that starts at 0 never counts more than
the limit (`Counted.held_lt`), so that no count wraps; without one the count is that of the connected
requests as a word.

A change of the list of peers to one of another length, or with other limits, is out of scope.

The names are those of the source without the prefix `ngx_http_wasm_`.
-/

namespace NgxWasm.Balancer

open Lib Abi

/-! ## The requests of an upstream -/

/-- What `upstream_init_peer` finds: the upstream's configuration, whether `wmcf` has a runtime,
what `original_init_peer` returns, if it is there, with the version and the bitmap it has prepared,
and the pool. -/
structure InitPeer where
  wcf : Option Config.Conf
  runtime : Bool
  pcallocOk : Bool
  original : Option (Rc × UInt64 × List UInt64)

/-- `upstream_init_peer`, with the fuel of the request's runs. -/
def upstreamInitPeer (e : InitPeer) (peers : RrPeers) : Rc × Option (BalancerPeerData × Nat) :=
  match e.wcf, e.original with
  | some wcf, some (rc, config, tried) =>
    if (wcf.phase .balancer).set ≠ 1 ∨ !e.runtime then (.error, none)
    else if !e.pcallocOk then (.error, none)
    else if rc ≠ .ok then (rc, none)
    else
      (.ok, some ({ originalData := some { config, peers := some peers, tried } },
        if wcf.fuelLimit = Config.confUnsetUint then Runtime.defaultFuelLimit else wcf.fuelLimit))
  | _, _ => (.error, none)

/-- `upstream_free_peer`: what nginx's function makes of its own data. -/
def upstreamFreePeer
    (originalFreePeer : PeerConnection → Option RrPeerData → Nat → Option RrPeerData)
    (pc : PeerConnection) (bpd : Option BalancerPeerData) (state : Nat) : Option RrPeerData :=
  match bpd with
  | none => none
  | some bpd => originalFreePeer pc bpd.originalData state

/-- The peers of an upstream, and its requests. -/
structure Cluster where
  peers : RrPeers
  requests : List Upstream

/-- The data of a request points to the peers as they are now. -/
def Upstream.view (peers : RrPeers) (s : Upstream) : Upstream :=
  { s with
    bpd :=
      { s.bpd with
        originalData := s.bpd.originalData.map fun rrp =>
          { rrp with peers := rrp.peers.map fun _ => peers } } }

/-- The peers that a request's data points to. -/
def peersOf (peers : RrPeers) (data : Option RrPeerData) : RrPeers :=
  (data.bind RrPeerData.peers).getD peers

/-- What happens in an upstream: a request comes, is connected to a peer, or lets it go; or nginx
changes the peers, as it does after a failure. -/
inductive Turn where
  | initPeer (e : InitPeer)
  | getPeer (i : Nat) (run : GuestRun) (now : Int)
  | freePeer (i : Nat) (state : Nat)
  | others (peers : RrPeers)

section Turns

variable (originalGetPeer : PeerConnection → Option RrPeerData → Answer)
  (originalFreePeer : PeerConnection → Option RrPeerData → Nat → Option RrPeerData)

/-- A request's own part in a turn. -/
def Cluster.connect (c : Cluster) (i : Nat) (s : Upstream) (run : GuestRun) (now : Int) : Cluster :=
  let a := (s.view c.peers).attempt originalGetPeer run now
  { peers := peersOf c.peers a.data
    requests := c.requests.set i { pc := a.pc, bpd := { s.bpd with originalData := a.data } } }

/-- nginx clears `sockaddr` when it has freed the peer. -/
def Cluster.disconnect (c : Cluster) (i : Nat) (s : Upstream) (state : Nat) : Cluster :=
  let data := upstreamFreePeer originalFreePeer s.pc (some (s.view c.peers).bpd) state
  { peers := peersOf c.peers data
    requests := c.requests.set i
      { pc := { s.pc with sockaddr := none }, bpd := { s.bpd with originalData := data } } }

/-- One turn. nginx asks for a peer when the request has none, and frees the one it has. -/
def turn (c : Cluster) : Turn → Cluster
  | .initPeer e =>
    match upstreamInitPeer e c.peers with
    | (.ok, some (bpd, _)) => { c with requests := c.requests ++ [{ bpd }] }
    | _ => c
  | .getPeer i run now =>
    match c.requests[i]? with
    | none => c
    | some s => if s.pc.sockaddr.isSome then c else c.connect originalGetPeer i s run now
  | .freePeer i state =>
    match c.requests[i]? with
    | none => c
    | some s => if s.pc.sockaddr.isNone then c else c.disconnect originalFreePeer i s state
  | .others peers => { c with peers }

end Turns

/-! ## What the peers count -/

/-- The connections of the peer at a place, and their limit. -/
def RrPeers.connsAt (ps : RrPeers) (p : Nat) : Option UInt64 := (ps.peer[p]?).map RrPeer.conns
def RrPeers.limitAt (ps : RrPeers) (p : Nat) : Option UInt64 := (ps.peer[p]?).map RrPeer.maxConns

/-- The limits stay, and the connections change by `f`. -/
structure Counts (f : Nat → UInt64 → UInt64) (ps ps' : RrPeers) : Prop where
  conns : ∀ p, ps'.connsAt p = (ps.connsAt p).map (f p)
  limit : ∀ p, ps'.limitAt p = ps.limitAt p

/-- One more at `p`. -/
def more (p q : Nat) (n : UInt64) : UInt64 := if q = p then n + 1 else n

/-- One less. -/
def less (p q : Nat) (n : UInt64) : UInt64 := if q = p then n - 1 else n

/-- The same everywhere. -/
def same (_ : Nat) (n : UInt64) : UInt64 := n

theorem Counts.refl (ps : RrPeers) : Counts same ps ps :=
  ⟨fun p => by cases h : ps.connsAt p <;> rfl, fun _ => rfl⟩

/-- The peer has room for a connection. -/
def RrPeer.Roomy (peer : RrPeer) : Prop := peer.maxConns ≠ 0 → peer.conns < peer.maxConns

/-- What an answer to `get` may be: a connection counted for a peer with room, or no change. -/
inductive Got (pc : PeerConnection) (peers : RrPeers) (a : Answer) : Prop
  | took {rrp' : RrPeerData} {peers' : RrPeers} {p : UInt64} {peer : RrPeer} (rc : a.rc = .ok)
      (data : a.data = some rrp') (list : rrp'.peers = some peers')
      (current : rrp'.current = some p) (place : peers.peer[p.toNat]? = some peer) (room : peer.Roomy)
      (counts : Counts (more p.toNat) peers peers') (connected : a.pc.sockaddr.isSome = true)
  | left {rrp' : RrPeerData} {peers' : RrPeers} (rc : a.rc ≠ .ok) (data : a.data = some rrp')
      (list : rrp'.peers = some peers') (counts : Counts same peers peers')
      (unconnected : a.pc.sockaddr = pc.sockaddr)

/-- What an answer to `free` is: the connection of the peer in `current` is taken back. -/
structure Freed (p : Nat) (peers : RrPeers) (data : Option RrPeerData) : Prop where
  counts : ∃ rrp' peers', data = some rrp' ∧ rrp'.peers = some peers' ∧ Counts (less p) peers peers'

/-- **What the module relies on**: nginx's functions count the connections of what they select. -/
structure RoundRobin (originalGetPeer : PeerConnection → Option RrPeerData → Answer)
    (originalFreePeer : PeerConnection → Option RrPeerData → Nat → Option RrPeerData) : Prop where
  get : ∀ pc rrp peers, rrp.peers = some peers → Got pc peers (originalGetPeer pc (some rrp))
  free : ∀ pc rrp peers p state, rrp.peers = some peers → rrp.current = some p →
    p.toNat < peers.peer.length → Freed p.toNat peers (originalFreePeer pc (some rrp) state)

/-! ## The wrapper's own selection -/

section Select

variable {pc : PeerConnection} {rrp : RrPeerData} {peers : RrPeers}

/-- A peer that is taken counts one connection more. -/
theorem counts_select {peerIndex : UInt64} {peer : RrPeer} {now : Int}
    (hplace : peers.peer[peerIndex.toNat]? = some peer) :
    Counts (more peerIndex.toNat) peers
      { peers with peer := peers.peer.modify peerIndex.toNat (RrPeer.take now) } := by
  have hat : ∀ q, (peers.peer.modify peerIndex.toNat (RrPeer.take now))[q]? =
      if q = peerIndex.toNat then some (peer.take now) else peers.peer[q]? := by
    intro q
    by_cases hq : q = peerIndex.toNat
    · rw [if_pos hq, hq, List.getElem?_modify_eq, hplace]
      rfl
    · rw [if_neg hq, List.getElem?_modify_ne _ _ (Ne.symm hq)]
  constructor
  · intro q
    unfold RrPeers.connsAt more
    dsimp only
    rw [hat]
    by_cases hq : q = peerIndex.toNat
    · rw [if_pos hq, hq, hplace]
      simp [RrPeer.take]
    · rw [if_neg hq]
      cases peers.peer[q]? <;> simp [hq]
  · intro q
    unfold RrPeers.limitAt
    dsimp only
    rw [hat]
    by_cases hq : q = peerIndex.toNat
    · rw [if_pos hq, hq, hplace]
      rfl
    · rw [if_neg hq]

theorem selectPeer_got (hpeers : rrp.peers = some peers) (peerIndex : UInt64) (now : Int) :
    Got pc peers (selectPeer now pc (some rrp) peerIndex) := by
  have hleft : ∀ (rc : PeerRc) (pc' : PeerConnection) (word : Option Nat), rc ≠ .ok →
      pc'.sockaddr = pc.sockaddr → Got pc peers { rc, pc := pc', data := some rrp, word } :=
    fun rc pc' word hrc hsock => .left hrc rfl hpeers (.refl peers) hsock
  unfold selectPeer
  dsimp only
  rw [hpeers]
  dsimp only
  split
  · exact hleft _ _ _ nofun rfl
  split
  · exact hleft _ _ _ nofun rfl
  rename_i peer hpeer
  have hplace : peers.peer[peerIndex.toNat]? = some peer :=
    (peerAt_eq 0 peerIndex peers.peer (Nat.zero_le _)).symm.trans hpeer
  split
  · exact hleft _ _ _ nofun rfl
  split
  · exact hleft _ _ _ nofun rfl
  split
  · exact hleft _ _ _ nofun rfl
  split
  · exact hleft _ _ _ nofun rfl
  rename_i hroom
  refine .took rfl rfl rfl rfl hplace (fun hmax => ?_) (counts_select hplace) rfl
  exact UInt64.not_le.mp fun hconns => hroom ⟨hmax, hconns⟩

/-- **A call of the wrapper** counts a connection for one peer with room, or changes nothing,
whichever of the two selects the peer. -/
theorem getPeer_got {originalGetPeer : PeerConnection → Option RrPeerData → Answer}
    {originalFreePeer : PeerConnection → Option RrPeerData → Nat → Option RrPeerData}
    (hnginx : RoundRobin originalGetPeer originalFreePeer) {s : Upstream}
    (hdata : s.bpd.originalData = some rrp) (hpeers : rrp.peers = some peers) (run : GuestRun)
    (now : Int) : Got s.pc peers (s.attempt originalGetPeer run now) := by
  have hleft : Got s.pc peers { rc := .error, pc := s.pc, data := s.bpd.originalData } :=
    .left nofun hdata hpeers (.refl peers) rfl
  unfold Upstream.attempt getPeer
  dsimp only
  split
  · exact hleft
  split
  · exact hleft
  split
  · rw [hdata]
    exact hnginx.get s.pc rrp peers hpeers
  · rw [hdata]
    exact selectPeer_got hpeers _ now

end Select

/-! ## Connected requests -/

/-- The request is connected to the peer at `p`. -/
def Upstream.holds (p : Nat) (s : Upstream) : Bool :=
  s.pc.sockaddr.isSome && (s.bpd.originalData.bind RrPeerData.current).any fun q => q.toNat == p

/-- How many are. -/
def Cluster.held (c : Cluster) (p : Nat) : Nat := c.requests.countP (Upstream.holds p)

/-- A request has nginx's data, and one that is connected has its peer there. -/
structure Linked (initial : RrPeers) (s : Upstream) : Prop where
  data : ∃ rrp peers, s.bpd.originalData = some rrp ∧ rrp.peers = some peers ∧
    (s.pc.sockaddr.isSome = true →
      ∃ p, rrp.current = some p ∧ (initial.connsAt p.toNat).isSome = true)

/-- **The invariant**: each peer counts the connections it had, and those of the connected requests,
which are within its limit. -/
structure Counted (initial : RrPeers) (c : Cluster) : Prop where
  limit : ∀ p, c.peers.limitAt p = initial.limitAt p
  conns : ∀ p, c.peers.connsAt p = (initial.connsAt p).map (· + UInt64.ofNat (c.held p))
  linked : ∀ s ∈ c.requests, Linked initial s
  within : ∀ p m, initial.connsAt p = some 0 → initial.limitAt p = some m → m ≠ 0 →
    c.held p ≤ m.toNat

section Held

variable {initial : RrPeers} {c : Cluster} {i : Nat} {s s' : Upstream} {rrp : RrPeerData}
  {p : UInt64} {q : Nat}

theorem holds_unconnected (h : s.pc.sockaddr = none) : s.holds q = false := by
  simp [Upstream.holds, h]

theorem holds_connected (h : s.pc.sockaddr.isSome = true) (hdata : s.bpd.originalData = some rrp)
    (hcurrent : rrp.current = some p) : s.holds q = decide (q = p.toNat) := by
  have heq : (p.toNat == q) = decide (q = p.toNat) := by
    rw [Bool.eq_iff_iff, beq_iff_eq, decide_eq_true_eq]
    exact eq_comm
  simp [Upstream.holds, h, hdata, hcurrent, heq]

/-- A request that changes is counted anew. -/
theorem held_set (hs : c.requests[i]? = some s) (ps : RrPeers) (q : Nat) (s' : Upstream) :
    (Cluster.held ⟨ps, c.requests.set i s'⟩ q) + (if s.holds q then 1 else 0) =
      c.held q + (if s'.holds q then 1 else 0) := by
  obtain ⟨hi, rfl⟩ := List.getElem?_eq_some_iff.mp hs
  have hle := List.boole_getElem_le_countP (p := Upstream.holds q) (l := c.requests) hi
  unfold Cluster.held
  dsimp only
  rw [List.countP_set hi]
  omega

/-- The data of a request, as it sees the peers. -/
theorem Linked.view (h : Linked initial s) (peers : RrPeers) :
    ∃ rrp, (s.view peers).bpd.originalData = some rrp ∧ rrp.peers = some peers ∧
      (s.pc.sockaddr.isSome = true →
        ∃ p, rrp.current = some p ∧ (initial.connsAt p.toNat).isSome = true) := by
  obtain ⟨rrp, ps, hdata, hpeers, hconnected⟩ := h.data
  refine ⟨{ rrp with peers := some peers }, ?_, rfl, hconnected⟩
  unfold Upstream.view
  rw [hdata]
  simp [hpeers]

theorem connsAt_of {ps : RrPeers} {peer : RrPeer} (hplace : ps.peer[q]? = some peer) :
    ps.connsAt q = some peer.conns := congrArg (Option.map _) hplace

theorem limitAt_of {ps : RrPeers} {peer : RrPeer} (hplace : ps.peer[q]? = some peer) :
    ps.limitAt q = some peer.maxConns := congrArg (Option.map _) hplace

theorem connsAt_isSome {ps : RrPeers} : (ps.connsAt q).isSome = true ↔ q < ps.peer.length := by
  unfold RrPeers.connsAt
  rw [Option.isSome_map, Option.isSome_iff_ne_none, ne_eq, List.getElem?_eq_none_iff, not_le]

theorem peersOf_data {ps peers : RrPeers} {data : Option RrPeerData} (hdata : data = some rrp)
    (hpeers : rrp.peers = some peers) : peersOf ps data = peers := by
  simp [peersOf, hdata, hpeers]

/-- **Room is there**: a peer that counts from 0 and has room holds fewer requests than its limit. -/
theorem Counted.held_lt (h : Counted initial c) {peer : RrPeer} {m : UInt64}
    (hplace : c.peers.peer[q]? = some peer) (hroom : peer.Roomy)
    (hzero : initial.connsAt q = some 0) (hm : initial.limitAt q = some m) (hne : m ≠ 0) :
    c.held q < m.toNat := by
  have hmax : peer.maxConns = m :=
    Option.some.inj ((limitAt_of hplace).symm.trans ((h.limit q).trans hm))
  have hcount : peer.conns = UInt64.ofNat (c.held q) := by
    have hconns := (connsAt_of hplace).symm.trans (h.conns q)
    rw [hzero] at hconns
    simpa using hconns
  have hlt : peer.conns < m := hmax ▸ hroom (hmax ▸ hne)
  rw [hcount, UInt64.lt_iff_toNat_lt] at hlt
  have hsmall : c.held q < 2 ^ 64 := lt_of_le_of_lt (h.within q m hzero hm hne) m.toNat_lt
  rwa [UInt64.toNat_ofNat_of_lt' (by simpa using hsmall)] at hlt

/-- A request whose data `upstream_init_peer` has made has that of nginx, for the peers. -/
theorem initPeer_data {e : InitPeer} {peers : RrPeers} {rc : Rc} {bpd : BalancerPeerData}
    {fuel : Nat} (h : upstreamInitPeer e peers = (rc, some (bpd, fuel))) :
    ∃ config tried, bpd.originalData = some { config, peers := some peers, tried } := by
  unfold upstreamInitPeer at h
  split at h
  · split at h
    · cases h
    · split at h
      · cases h
      · split at h
        · cases h
        · obtain ⟨rfl, rfl⟩ := Prod.mk.inj (Option.some.inj (Prod.mk.inj h).2)
          exact ⟨_, _, rfl⟩
  · cases h

end Held

/-! ## One turn -/

section Turn

variable {originalGetPeer : PeerConnection → Option RrPeerData → Answer}
  {originalFreePeer : PeerConnection → Option RrPeerData → Nat → Option RrPeerData}
  {initial : RrPeers} {c : Cluster} {i : Nat} {s : Upstream}

/-- A connection more, for a peer with room. -/
theorem Counted.more {c' : Cluster} (h : Counted initial c) {p : UInt64} {peer : RrPeer}
    (hplace : c.peers.peer[p.toNat]? = some peer) (hroom : peer.Roomy)
    (hcounts : Counts (more p.toNat) c.peers c'.peers)
    (hheld : ∀ q, c'.held q = c.held q + if q = p.toNat then 1 else 0)
    (hlinked : ∀ s ∈ c'.requests, Linked initial s) : Counted initial c' where
  limit q := (hcounts.limit q).trans (h.limit q)
  linked := hlinked
  conns q := by
    rw [hcounts.conns, h.conns, Option.map_map, hheld]
    refine congrFun (congrArg Option.map (funext fun n => ?_)) _
    unfold Balancer.more
    by_cases hq : q = p.toNat
    · simp only [Function.comp_apply, if_pos hq]
      rw [UInt64.ofNat_add, ← UInt64.add_assoc]
      rfl
    · simp only [Function.comp_apply, if_neg hq, Nat.add_zero]
  within q m hzero hm hne := by
    rw [hheld]
    by_cases hq : q = p.toNat
    · -- the peer had room, and its count is the number of connected requests
      rw [if_pos hq]
      exact h.held_lt (hq ▸ hplace) hroom hzero hm hne
    · rw [if_neg hq]
      exact h.within q m hzero hm hne

/-- The same connections. -/
theorem Counted.same {c' : Cluster} (h : Counted initial c)
    (hcounts : Counts same c.peers c'.peers) (hheld : ∀ q, c'.held q = c.held q)
    (hlinked : ∀ s ∈ c'.requests, Linked initial s) : Counted initial c' where
  limit q := (hcounts.limit q).trans (h.limit q)
  linked := hlinked
  conns q := by
    rw [hcounts.conns, h.conns, Option.map_map, hheld]
    rfl
  within q m hzero hm hne := by
    rw [hheld]
    exact h.within q m hzero hm hne

/-- A connection less. -/
theorem Counted.less {c' : Cluster} (h : Counted initial c) {p : Nat}
    (hcounts : Counts (less p) c.peers c'.peers)
    (hheld : ∀ q, c'.held q + (if q = p then 1 else 0) = c.held q)
    (hlinked : ∀ s ∈ c'.requests, Linked initial s) : Counted initial c' where
  limit q := (hcounts.limit q).trans (h.limit q)
  linked := hlinked
  conns q := by
    rw [hcounts.conns, h.conns, Option.map_map, ← hheld]
    refine congrFun (congrArg Option.map (funext fun n => ?_)) _
    unfold Balancer.less
    by_cases hq : q = p
    · simp only [Function.comp_apply, if_pos hq]
      rw [UInt64.ofNat_add, ← UInt64.add_assoc]
      exact UInt64.add_sub_cancel _ _
    · simp only [Function.comp_apply, if_neg hq, Nat.add_zero]
  within q m hzero hm hne := by
    have hbefore := h.within q m hzero hm hne
    have := hheld q
    omega

/-- The requests are linked, after one of them has changed. -/
theorem Counted.linked_set (h : Counted initial c) {s' : Upstream} (hs' : Linked initial s') :
    ∀ t ∈ c.requests.set i s', Linked initial t := by
  intro t ht
  rcases List.mem_or_eq_of_mem_set ht with ht | rfl
  · exact h.linked t ht
  · exact hs'

/-- **A request asks for a peer.** -/
theorem Counted.connect (h : Counted initial c)
    (hnginx : RoundRobin originalGetPeer originalFreePeer) (hs : c.requests[i]? = some s)
    (hfree : s.pc.sockaddr = none) (run : GuestRun) (now : Int) :
    Counted initial (c.connect originalGetPeer i s run now) := by
  obtain ⟨rrp, hdata, hpeers, -⟩ := (h.linked s (List.mem_of_getElem? hs)).view c.peers
  have hold : ∀ q, s.holds q = false := fun q => holds_unconnected hfree
  have hgot := getPeer_got hnginx hdata hpeers run now
  unfold Cluster.connect
  dsimp only
  cases hgot with
  | @took rrp' peers' p peer rc data list current place room counts connected =>
    have hshared : peersOf c.peers
        ((s.view c.peers).attempt originalGetPeer run now).data = peers' := peersOf_data data list
    have hplace : (initial.connsAt p.toNat).isSome = true := by
      rw [← Option.isSome_map, ← h.conns, connsAt_of place]
      rfl
    rw [hshared]
    refine h.more place room counts (fun q => ?_) ?_
    · have hset := held_set hs peers' q
        ⟨((s.view c.peers).attempt originalGetPeer run now).pc,
          { s.bpd with originalData := ((s.view c.peers).attempt originalGetPeer run now).data }⟩
      rw [hold, holds_connected connected data current] at hset
      simpa using hset
    · exact h.linked_set ⟨rrp', peers', data, list, fun _ => ⟨p, current, hplace⟩⟩
  | @left rrp' peers' rc data list counts unconnected =>
    have hshared : peersOf c.peers
        ((s.view c.peers).attempt originalGetPeer run now).data = peers' := peersOf_data data list
    have hnone : ((s.view c.peers).attempt originalGetPeer run now).pc.sockaddr = none :=
      unconnected.trans hfree
    rw [hshared]
    refine h.same counts (fun q => ?_) ?_
    · have hset := held_set hs peers' q
        ⟨((s.view c.peers).attempt originalGetPeer run now).pc,
          { s.bpd with originalData := ((s.view c.peers).attempt originalGetPeer run now).data }⟩
      rw [hold, holds_unconnected hnone] at hset
      simpa using hset
    · refine h.linked_set ⟨rrp', peers', data, list, fun hsome => ?_⟩
      rw [hnone] at hsome
      cases hsome

/-- **A request lets its peer go.** -/
theorem Counted.disconnect (h : Counted initial c)
    (hnginx : RoundRobin originalGetPeer originalFreePeer) (hs : c.requests[i]? = some s)
    (hconnected : s.pc.sockaddr.isSome = true) (state : Nat) :
    Counted initial (c.disconnect originalFreePeer i s state) := by
  have hlinked := h.linked s (List.mem_of_getElem? hs)
  obtain ⟨rrp, hdata, hpeers, hcurrent⟩ := hlinked.view c.peers
  obtain ⟨p, hp, hplace⟩ := hcurrent hconnected
  have hlt : p.toNat < c.peers.peer.length := by
    refine connsAt_isSome.mp ?_
    rw [h.conns, Option.isSome_map]
    exact hplace
  obtain ⟨rrp', peers', hdata', hpeers', hcounts⟩ :=
    (hnginx.free s.pc rrp c.peers p state hpeers hp hlt).counts
  have hold : ∀ q, s.holds q = decide (q = p.toNat) := by
    obtain ⟨rrp₀, ps, hdata₀, hpeers₀, -⟩ := hlinked.data
    have hview : (s.view c.peers).bpd.originalData =
        some { rrp₀ with peers := some c.peers } := by
      unfold Upstream.view
      rw [hdata₀]
      simp [hpeers₀]
    obtain rfl := Option.some.inj (hview.symm.trans hdata)
    exact fun q => holds_connected hconnected hdata₀ hp
  have hfreed : upstreamFreePeer originalFreePeer s.pc (some (s.view c.peers).bpd) state =
      some rrp' := by
    unfold upstreamFreePeer
    dsimp only
    rw [hdata]
    exact hdata'
  have hshared : peersOf c.peers (some rrp') = peers' := peersOf_data rfl hpeers'
  unfold Cluster.disconnect
  dsimp only
  rw [hfreed, hshared]
  refine h.less hcounts (fun q => ?_) ?_
  · have hset := held_set hs peers' q
      ⟨{ s.pc with sockaddr := none }, { s.bpd with originalData := some rrp' }⟩
    rw [hold, holds_unconnected rfl] at hset
    simpa using hset
  · exact h.linked_set ⟨rrp', peers', rfl, hpeers', nofun⟩

/-- nginx's other changes leave the connections and the limits alone. -/
def Tunes (c : Cluster) : Turn → Prop
  | .others peers => Counts same c.peers peers
  | .initPeer _ | .getPeer .. | .freePeer .. => True

/-- **One turn.** -/
theorem Counted.turn (h : Counted initial c) (hnginx : RoundRobin originalGetPeer originalFreePeer)
    {t : Turn} (ht : Tunes c t) :
    Counted initial (Balancer.turn originalGetPeer originalFreePeer c t) := by
  cases t with
  | initPeer e =>
    unfold Balancer.turn
    dsimp only
    split
    · rename_i bpd fuel hinit
      obtain ⟨config, tried, hdata⟩ := initPeer_data hinit
      refine h.same (.refl _) (fun q => ?_) fun s hs => ?_
      · unfold Cluster.held
        dsimp only
        rw [List.countP_append]
        simp [Upstream.holds]
      · rcases List.mem_append.mp hs with hs | hs
        · exact h.linked s hs
        · obtain rfl := List.mem_singleton.mp hs
          exact ⟨_, _, hdata, rfl, nofun⟩
    · exact h
  | getPeer i run now =>
    unfold Balancer.turn
    dsimp only
    split
    · exact h
    rename_i s hs
    split
    · exact h
    · rename_i hno
      exact h.connect hnginx hs (by simpa using hno) run now
  | freePeer i state =>
    unfold Balancer.turn
    dsimp only
    split
    · exact h
    rename_i s hs
    split
    · exact h
    · rename_i hno
      exact h.disconnect hnginx hs (by simpa [Option.isSome_iff_ne_none] using hno) state
  | others peers => exact h.same ht (fun _ => rfl) h.linked

end Turn

/-! ## Any number of turns -/

/-- What a peer counts after some turns, which had `before` connections at the beginning. -/
structure RrPeer.Counts (connected : Nat) (before after : RrPeer) : Prop where
  limit : after.maxConns = before.maxConns
  conns : after.conns = before.conns + UInt64.ofNat connected
  within : before.conns = 0 → before.maxConns ≠ 0 → connected ≤ before.maxConns.toNat

/-- **Every peer counts its connections, and keeps its limit**: however the requests of an upstream
take turns, whatever their guests select, and whether or not they select a peer at all, each peer
counts exactly the requests connected to it beyond what it had; and these are at most `max_conns`,
if there is a limit and it started with none. -/
theorem connections_counted
    (originalGetPeer : PeerConnection → Option RrPeerData → Answer)
    (originalFreePeer : PeerConnection → Option RrPeerData → Nat → Option RrPeerData)
    (hnginx : RoundRobin originalGetPeer originalFreePeer) (initial : RrPeers) (turns : List Turn)
    (hturns : Meets (turn originalGetPeer originalFreePeer) Tunes ⟨initial, []⟩ turns) :
    let c := runFrom (turn originalGetPeer originalFreePeer) ⟨initial, []⟩ turns
    c.peers.peer.length = initial.peer.length ∧
      ∀ p before after, initial.peer[p]? = some before → c.peers.peer[p]? = some after →
        RrPeer.Counts (c.held p) before after := by
  intro c
  have h0 : Counted initial ⟨initial, []⟩ := by
    refine ⟨fun _ => rfl, fun p => ?_, fun s hs => absurd hs List.not_mem_nil, fun _ _ _ _ _ =>
      Nat.zero_le _⟩
    cases hp : initial.connsAt p with
    | none => rfl
    | some n => simp [Cluster.held]
  have h : Counted initial c := hturns.invariant h0 fun c t h ht => h.turn hnginx ht
  constructor
  · refine Nat.le_antisymm (Nat.le_of_not_lt fun hlt => ?_) (Nat.le_of_not_lt fun hlt => ?_)
    · have hsome := connsAt_isSome.mpr hlt
      rw [h.conns, Option.isSome_map] at hsome
      exact absurd (connsAt_isSome.mp hsome) (Nat.lt_irrefl _)
    · have hsome := connsAt_isSome.mpr hlt
      rw [← Option.isSome_map, ← h.conns] at hsome
      exact absurd (connsAt_isSome.mp hsome) (Nat.lt_irrefl _)
  · intro p before after hbefore hafter
    have hconns := h.conns p
    have hlimit := h.limit p
    rw [connsAt_of hafter, connsAt_of hbefore] at hconns
    rw [limitAt_of hafter, limitAt_of hbefore] at hlimit
    refine ⟨Option.some.inj hlimit, Option.some.inj hconns, fun hzero hne => ?_⟩
    exact h.within p _ ((connsAt_of hbefore).trans (congrArg some hzero)) (limitAt_of hbefore) hne

/-! Two requests at one peer that takes one connection: the guest of the first selects it, the
second leaves it to nginx, which has none, and gets it when the first has let it go. -/

/-- nginx's selection, in a cluster of one peer. -/
def onlyPeer (pc : PeerConnection) (data : Option RrPeerData) : Answer := selectPeer 0 pc data 0

/-- nginx's `free`. -/
def freeCurrent (_ : PeerConnection) (data : Option RrPeerData) (_ : Nat) : Option RrPeerData :=
  data.map fun rrp => { rrp with
    peers := rrp.peers.map fun ps => { ps with
      peer := match rrp.current with
        | some p => ps.peer.modify p.toNat fun peer => { peer with conns := peer.conns - 1 }
        | none => ps.peer } }

theorem roundRobin_onlyPeer : RoundRobin onlyPeer freeCurrent where
  get pc rrp peers hpeers := selectPeer_got hpeers 0 0
  free pc rrp peers p state hpeers hcurrent hlt := by
    refine ⟨⟨_, _, rfl, congrArg (Option.map _) hpeers, ?_⟩⟩
    rw [hcurrent]
    constructor
    · intro q
      unfold RrPeers.connsAt less
      dsimp only
      rw [List.getElem?_modify]
      cases peers.peer[q]? with
      | none => rfl
      | some peer =>
        by_cases hq : q = p.toNat
        · simp [hq]
        · simp [hq, Ne.symm hq]
    · intro q
      unfold RrPeers.limitAt
      dsimp only
      rw [List.getElem?_modify]
      cases peers.peer[q]? with
      | none => rfl
      | some peer => by_cases hq : p.toNat = q <;> simp [hq]

/-- One connection at most. -/
def single : RrPeers where
  peer := [{ sockaddr := [1], socklen := 1, name := [1], maxConns := 1 }]

/-- A request comes to an upstream with a balancer. -/
def comes : InitPeer where
  wcf := some
    { Config.createConf with
      phase := fun _ => { set := 1 } }
  runtime := true
  pcallocOk := true
  original := some (.ok, 0, [0])

def oneAfterTheOther : List Turn :=
  [.initPeer comes, .initPeer comes, .getPeer 0 (setsPeer 0) 1,
    .getPeer 1 { rc := .ok, abi := abiInit capBalancer } 2, .freePeer 0 0,
    .getPeer 1 { rc := .ok, abi := abiInit capBalancer } 3]

theorem connections_counted_single :
    let c := runFrom (turn onlyPeer freeCurrent) ⟨single, []⟩ oneAfterTheOther
    (c.held 0 = 1 ∧ (c.requests.map fun s => s.holds 0) = [false, true]) ∧
      c.peers.peer.length = single.peer.length ∧
      ∀ p before after, single.peer[p]? = some before → c.peers.peer[p]? = some after →
        RrPeer.Counts (c.held p) before after :=
  ⟨by decide +kernel, connections_counted onlyPeer freeCurrent roundRobin_onlyPeer single
    oneAfterTheOther ⟨trivial, trivial, trivial, trivial, trivial, trivial, trivial⟩⟩

end NgxWasm.Balancer
