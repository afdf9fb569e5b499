import NgxWasm.Abi.Ctx
import NgxWasm.Lib.Bitmap
import NgxWasm.Lib.Run

/-!
# The peer a guest selects

`ngx_http_wasm_upstream_get_peer` takes the place of nginx's round robin in an upstream with a
balancer. nginx calls it for the first connection of a request and for each retry. It runs the guest,
and hands the index the guest has set to `ngx_http_wasm_balancer_select_peer`. That one works on nginx's
own data: the list of peers, which all workers share, and the bitmap of the peers this request has
tried.

An attempt is one step. Between two of them nginx and other workers may do to the peers what they
like, and so may a reload that replaces the list by another version. Of the guest only what it returns
and the index it leaves are here (`GuestRun`), and the locks are left out.

* `selectPeer_selects`: what one call can do: nothing, or take the peer, and nothing else changes then.
* `inv_run`: the bitmap holds every peer taken so far, whatever other workers do to the peers.
* `untried_peer_taken`: so no peer is taken twice, and what is taken is fit to be.

The bitmap has room for the peers there were when nginx set it up, so a list of another length is taken
to come with another version (`Allowed`), which `select_peer` refuses. A guest that selects no peer
hands the request over to nginx's own function, which is a parameter.
-/

namespace NgxWasm.Balancer

open Lib Lib.Bitmap Abi

/-- What an `ngx_event_get_peer_pt` returns. -/
inductive PeerRc where
  /-- `NGX_OK`. -/
  | ok
  /-- `NGX_ERROR`. -/
  | error
  /-- `NGX_BUSY`. -/
  | busy
  /-- `NGX_DONE`: the connection is there already. -/
  | done
  deriving Repr, DecidableEq

/-- `ngx_http_upstream_rr_peer_t`, as far as the module reads and writes it. Times are in seconds. -/
structure RrPeer where
  sockaddr : Bytes
  socklen : UInt32
  name : Bytes
  down : Bool := false
  fails : UInt64 := 0
  maxFails : UInt64 := 1
  failTimeout : Int := 10
  checked : Int := 0
  conns : UInt64 := 0
  maxConns : UInt64 := 0
  refs : UInt64 := 0
  deriving Repr, DecidableEq

/-- `ngx_http_upstream_rr_peers_t`. The list is shared, and `*config` counts its versions where it is in
a zone. -/
structure RrPeers where
  peer : List RrPeer
  config : Option UInt64 := none
  deriving Repr, DecidableEq

/-- `ngx_http_upstream_rr_peer_data_t`: the request's view of the peers. A peer in the list is known by
its place. -/
structure RrPeerData where
  config : UInt64 := 0
  peers : Option RrPeers
  current : Option UInt64 := none
  tried : List UInt64
  deriving Repr, DecidableEq

/-- `ngx_peer_connection_t`. -/
structure PeerConnection where
  cached : Bool := false
  connection : Option Nat := none
  sockaddr : Option Bytes := none
  socklen : UInt32 := 0
  name : Option Bytes := none
  deriving Repr, DecidableEq

/-- What a call returns, what it leaves, and the word of the bitmap it has looked at. -/
structure Answer where
  rc : PeerRc
  pc : PeerConnection
  data : Option RrPeerData
  word : Option Nat := none
  deriving Repr, DecidableEq

/-! ## The calls -/

/-- The list is of another version than the request has. -/
def RrPeerData.stale (rrp : RrPeerData) (peers : RrPeers) : Bool :=
  peers.config.any fun config => rrp.config != config

/-- The loop over the list. -/
def peerAt (i peerIndex : UInt64) : List RrPeer → Option RrPeer
  | [] => none
  | peer :: next => if i = peerIndex then some peer else peerAt (i + 1) peerIndex next

/-- What the call writes to the peer. -/
def RrPeer.take (now : Int) (peer : RrPeer) : RrPeer :=
  { peer with
    refs := peer.refs + 1
    checked := if now - peer.checked > peer.failTimeout then now else peer.checked
    conns := peer.conns + 1 }

/-- What it writes to the request's data. -/
def RrPeerData.select (rrp : RrPeerData) (peers : RrPeers) (peerIndex : UInt64) (now : Int) : RrPeerData :=
  { rrp with
    peers := some { peers with peer := peers.peer.modify peerIndex.toNat (RrPeer.take now) }
    current := some peerIndex
    tried := set rrp.tried peerIndex }

/-- And what it writes to the connection. -/
def PeerConnection.select (pc : PeerConnection) (peer : RrPeer) : PeerConnection :=
  { pc with sockaddr := some peer.sockaddr, socklen := peer.socklen, name := some peer.name }

/-- `ngx_http_wasm_balancer_select_peer`. -/
def selectPeer (now : Int) (pc : PeerConnection) (data : Option RrPeerData) (peerIndex : UInt64) :
    Answer :=
  match data with
  | none => { rc := .error, pc, data }
  | some rrp =>
    match rrp.peers with
    | none => { rc := .error, pc, data }
    | some peers =>
      let pc := { pc with cached := false, connection := none }
      if rrp.stale peers then { rc := .busy, pc, data }
      else
        match peerAt 0 peerIndex peers.peer with
        | none => { rc := .error, pc, data }
        | some peer =>
          let n := word peerIndex
          if Mem rrp.tried peerIndex then { rc := .busy, pc, data, word := some n }
          else if peer.down then { rc := .busy, pc, data, word := some n }
          else if peer.maxFails ≠ 0 ∧ peer.fails ≥ peer.maxFails ∧
              now - peer.checked ≤ peer.failTimeout then
            { rc := .busy, pc, data, word := some n }
          else if peer.maxConns ≠ 0 ∧ peer.conns ≥ peer.maxConns then
            { rc := .busy, pc, data, word := some n }
          else
            { rc := .ok, pc := pc.select peer, data := some (rrp.select peers peerIndex now),
              word := some n }

/-- `ngx_http_wasm_balancer_peer_data_t`: what `ngx_http_wasm_upstream_init_peer` has found, and nginx's
own data. -/
structure BalancerPeerData where
  request : Bool := true
  conf : Bool := true
  runtime : Bool := true
  originalData : Option RrPeerData
  deriving Repr, DecidableEq

/-- A run of the guest: what it returns, and what it leaves in the context. -/
structure GuestRun where
  rc : Rc
  abi : AbiCtx

/-- `ngx_http_wasm_upstream_get_peer`. `originalGetPeer` is nginx's. -/
def getPeer (originalGetPeer : PeerConnection → Option RrPeerData → Answer) (run : GuestRun) (now : Int)
    (pc : PeerConnection) (bpd : Option BalancerPeerData) : Answer :=
  match bpd with
  | none => { rc := .error, pc, data := none }
  | some bpd =>
    if !bpd.request || !bpd.conf || !bpd.runtime then { rc := .error, pc, data := bpd.originalData }
    else if run.rc ≠ .ok then { rc := .error, pc, data := bpd.originalData }
    else if !run.abi.balancerPeerSet then originalGetPeer pc bpd.originalData
    else selectPeer now pc bpd.originalData run.abi.balancerPeerIndex

/-! ## One call -/

theorem peerAt_eq (i peerIndex : UInt64) (peers : List RrPeer) (h : i.toNat ≤ peerIndex.toNat) :
    peerAt i peerIndex peers = peers[peerIndex.toNat - i.toNat]? := by
  induction peers generalizing i with
  | nil => rfl
  | cons peer next ih =>
    unfold peerAt
    by_cases hi : i = peerIndex
    · rw [if_pos hi, hi, Nat.sub_self]
      rfl
    · have hne : i.toNat ≠ peerIndex.toNat := fun heq => hi (UInt64.toNat_inj.mp heq)
      have hlt := peerIndex.toNat_lt
      have hsucc : (i + 1).toNat = i.toNat + 1 := by
        rw [UInt64.toNat_add]
        exact Nat.mod_eq_of_lt (by simp; omega)
      have hsub : peerIndex.toNat - i.toNat = (peerIndex.toNat - (i + 1).toNat) + 1 := by omega
      rw [if_neg hi, ih (i + 1) (by omega), hsub, List.getElem?_cons_succ]

/-- A peer that a connection may be made to. -/
structure RrPeer.Available (now : Int) (peer : RrPeer) : Prop where
  up : peer.down = false
  alive : peer.maxFails ≠ 0 → peer.maxFails ≤ peer.fails → peer.failTimeout < now - peer.checked
  room : peer.maxConns ≠ 0 → peer.conns < peer.maxConns

/-- The index is of this peer, in a list of the version the request has. -/
structure Finds (data : Option RrPeerData) (peerIndex : UInt64) (rrp : RrPeerData) (peers : RrPeers)
    (peer : RrPeer) : Prop where
  seen : data = some rrp
  list : rrp.peers = some peers
  fresh : rrp.stale peers = false
  place : peers.peer[peerIndex.toNat]? = some peer

/-- The peer is taken: it was untried and available, and this is all that changes. -/
structure Takes (now : Int) (peerIndex : UInt64) (rrp : RrPeerData) (peers : RrPeers) (peer : RrPeer)
    (data : Option RrPeerData) : Prop where
  untried : ¬ Mem rrp.tried peerIndex
  available : peer.Available now
  written : data = some (rrp.select peers peerIndex now)

/-- What a call can do: nothing, before it looks at the bitmap or after, or take the peer. -/
inductive Selects (now : Int) (peerIndex : UInt64) (data : Option RrPeerData) (a : Answer) : Prop
  | missed (rc : a.rc ≠ .ok) (same : a.data = data) (unread : a.word = none)
  | refused {rrp : RrPeerData} {peers : RrPeers} {peer : RrPeer} (rc : a.rc ≠ .ok)
      (same : a.data = data) (finds : Finds data peerIndex rrp peers peer)
      (read : a.word = some (word peerIndex))
  | taken {rrp : RrPeerData} {peers : RrPeers} {peer : RrPeer} (rc : a.rc = .ok)
      (finds : Finds data peerIndex rrp peers peer)
      (takes : Takes now peerIndex rrp peers peer a.data) (read : a.word = some (word peerIndex))

theorem selectPeer_selects (now : Int) (pc : PeerConnection) (data : Option RrPeerData)
    (peerIndex : UInt64) : Selects now peerIndex data (selectPeer now pc data peerIndex) := by
  unfold selectPeer
  cases data with
  | none => exact .missed nofun rfl rfl
  | some rrp =>
    dsimp only
    cases hpeers : rrp.peers with
    | none => exact .missed nofun rfl rfl
    | some peers =>
      dsimp only
      cases hstale : rrp.stale peers with
      | true => exact .missed nofun rfl rfl
      | false =>
        rw [if_neg Bool.false_ne_true]
        have hat := peerAt_eq 0 peerIndex peers.peer (Nat.zero_le _)
        cases hpeer : peerAt 0 peerIndex peers.peer with
        | none => exact .missed nofun rfl rfl
        | some peer =>
          have hfinds : Finds (some rrp) peerIndex rrp peers peer :=
            ⟨rfl, hpeers, hstale, hat.symm.trans hpeer⟩
          dsimp only
          split
          · exact .refused nofun rfl hfinds rfl
          rename_i huntried
          split
          · exact .refused nofun rfl hfinds rfl
          rename_i hup
          split
          · exact .refused nofun rfl hfinds rfl
          rename_i halive
          split
          · exact .refused nofun rfl hfinds rfl
          rename_i hroom
          refine .taken rfl hfinds ⟨huntried, ⟨Bool.eq_false_iff.mpr hup, ?_, ?_⟩, rfl⟩ rfl
          · intro hmax hfails
            exact lt_of_not_ge fun htime => halive ⟨hmax, hfails, htime⟩
          · intro hmax
            exact UInt64.not_le.mp fun hconns => hroom ⟨hmax, hconns⟩

/-! ## The attempts of a request -/

/-- nginx's connection and the module's data. -/
structure Upstream where
  pc : PeerConnection := {}
  bpd : BalancerPeerData

/-- An attempt of the request, or a change that nginx or another worker makes to the peers. -/
inductive Event where
  | attempt (run : GuestRun) (now : Int)
  | others (peers : RrPeers)

variable {originalGetPeer : PeerConnection → Option RrPeerData → Answer}

section Events

variable (originalGetPeer)

/-- An attempt in a state. -/
def Upstream.attempt (s : Upstream) (run : GuestRun) (now : Int) : Answer :=
  getPeer originalGetPeer run now s.pc (some s.bpd)

/-- One event. -/
def step (s : Upstream) : Event → Upstream
  | .attempt run now =>
    let a := s.attempt originalGetPeer run now
    { pc := a.pc, bpd := { s.bpd with originalData := a.data } }
  | .others peers =>
    { s with
      bpd :=
        { s.bpd with
          originalData := s.bpd.originalData.map fun rrp =>
            { rrp with peers := rrp.peers.map fun _ => peers } } }

/-- The index an attempt has taken. -/
def taken (s : Upstream) : Event → Option UInt64
  | .attempt run now =>
    if (s.attempt originalGetPeer run now).rc = .ok then some run.abi.balancerPeerIndex else none
  | .others _ => none

end Events

/-- The guest selects a peer, so that nginx's own selection is not called. -/
def GuestRun.Sets (run : GuestRun) : Prop := run.rc = .ok → run.abi.balancerPeerSet = true

/-- The request's view of `number` peers: a list of that version has as many. -/
def RrPeerData.Views (number : Nat) (rrp : RrPeerData) (peers : RrPeers) : Prop :=
  rrp.stale peers = false → peers.peer.length = number

/-- The events of a request: no fallback, and a new version for a list of another length. -/
def Allowed (number : Nat) (s : Upstream) : Event → Prop
  | .attempt run _ => run.Sets
  | .others peers => ∀ rrp ∈ s.bpd.originalData, rrp.Views number peers

/-- What nginx has set up for the request: room for a bit for each of the `number` peers, all clear. -/
structure Initialised (number : Nat) (s : Upstream) : Prop where
  tried : ∀ rrp ∈ s.bpd.originalData, ∃ size, words number ≤ size ∧ rrp.tried = List.replicate size 0
  views : ∀ rrp ∈ s.bpd.originalData, ∀ peers ∈ rrp.peers, rrp.Views number peers

/-- Once the `earlier` peers are taken, the bitmap has them. -/
structure Inv (number : Nat) (earlier : List (Option UInt64)) (rrp : RrPeerData) : Prop where
  room : words number ≤ rrp.tried.length
  tried : ∀ i, some i ∈ earlier → Mem rrp.tried i
  views : ∀ peers ∈ rrp.peers, rrp.Views number peers

section Run

variable {number : Nat} {earlier : List (Option UInt64)} {s : Upstream}

theorem attempt_selects {run : GuestRun} (h : run.Sets) (now : Int) :
    Selects now run.abi.balancerPeerIndex s.bpd.originalData (s.attempt originalGetPeer run now) := by
  unfold Upstream.attempt getPeer
  dsimp only
  split
  · exact .missed nofun rfl rfl
  split
  · exact .missed nofun rfl rfl
  rename_i hrc
  rw [h (not_not.mp hrc)]
  exact selectPeer_selects now s.pc s.bpd.originalData run.abi.balancerPeerIndex

section Finds

variable {data : Option RrPeerData} {peerIndex : UInt64} {rrp : RrPeerData} {peers : RrPeers}
  {peer : RrPeer}

theorem Finds.word_lt (h : Finds data peerIndex rrp peers peer) (hinv : Inv number earlier rrp) :
    word peerIndex < words number := by
  have hlt : peerIndex.toNat < peers.peer.length := (List.getElem?_eq_some_iff.mp h.place).1
  exact Bitmap.word_lt (hinv.views peers h.list h.fresh ▸ hlt)

/-- The word is one that nginx has allocated. -/
theorem Finds.room (h : Finds data peerIndex rrp peers peer) (hinv : Inv number earlier rrp) :
    word peerIndex < rrp.tried.length := lt_of_lt_of_le (h.word_lt hinv) hinv.room

/-- A peer more is taken. -/
theorem Finds.inv_select (h : Finds data peerIndex rrp peers peer) (hinv : Inv number earlier rrp)
    (now : Int) : Inv number (earlier ++ [some peerIndex]) (rrp.select peers peerIndex now) where
  room := le_of_le_of_eq hinv.room (length_set rrp.tried peerIndex).symm
  tried i hi := by
    refine (mem_set (h.room hinv) i).mpr ?_
    rcases List.mem_append.mp hi with hi | hi
    · exact Or.inr (hinv.tried i hi)
    · exact Or.inl (Option.some.inj (List.mem_singleton.mp hi))
  views peers' hpeers' hstale := by
    obtain rfl := Option.some.inj hpeers'
    exact (List.length_modify ..).trans (hinv.views peers h.list hstale)

end Finds

theorem Inv.of_same {rrp : RrPeerData} (h : Inv number earlier rrp) :
    Inv number (earlier ++ [none]) rrp where
  room := h.room
  tried i hi := by
    rcases List.mem_append.mp hi with hi | hi
    · exact h.tried i hi
    · exact absurd (List.mem_singleton.mp hi) nofun
  views := h.views

/-- What one event preserves. -/
theorem inv_step (h : ∀ rrp ∈ s.bpd.originalData, Inv number earlier rrp) {e : Event}
    (he : Allowed number s e) :
    ∀ rrp ∈ (step originalGetPeer s e).bpd.originalData,
      Inv number (earlier ++ [taken originalGetPeer s e]) rrp := by
  cases e with
  | others peers =>
    intro rrp' hrrp'
    obtain ⟨rrp, hrrp, rfl⟩ := Option.map_eq_some_iff.mp hrrp'
    refine Inv.of_same ⟨(h rrp hrrp).room, (h rrp hrrp).tried, ?_⟩
    intro peers' hpeers'
    obtain ⟨_, -, rfl⟩ := Option.map_eq_some_iff.mp hpeers'
    exact he rrp hrrp
  | attempt run now =>
    have hsame : (s.attempt originalGetPeer run now).rc ≠ .ok →
        (s.attempt originalGetPeer run now).data = s.bpd.originalData →
        ∀ rrp ∈ (step originalGetPeer s (.attempt run now)).bpd.originalData,
          Inv number (earlier ++ [taken originalGetPeer s (.attempt run now)]) rrp := by
      intro hrc hdata rrp hrrp
      rw [taken, if_neg hrc]
      exact (h rrp (hdata ▸ hrrp)).of_same
    have hselects : Selects now run.abi.balancerPeerIndex s.bpd.originalData
        (s.attempt originalGetPeer run now) := attempt_selects he now
    cases hselects with
    | missed rc same => exact hsame rc same
    | refused rc same => exact hsame rc same
    | @taken rrp peers peer rc finds takes =>
      intro rrp' hrrp'
      obtain rfl : rrp.select peers run.abi.balancerPeerIndex now = rrp' :=
        Option.some.inj (takes.written.symm.trans hrrp')
      rw [taken, if_pos rc]
      exact finds.inv_select (h rrp finds.seen) now

/-- And what a run preserves. -/
theorem inv_run {es : List Event} (h : ∀ rrp ∈ s.bpd.originalData, Inv number earlier rrp)
    (hes : Meets (step originalGetPeer) (Allowed number) s es) :
    ∀ rrp ∈ (runFrom (step originalGetPeer) s es).bpd.originalData,
      Inv number (earlier ++ shows (step originalGetPeer) (taken originalGetPeer) s es) rrp := by
  induction es generalizing s earlier with
  | nil =>
    intro rrp hrrp
    rw [shows, List.append_nil]
    exact h rrp hrrp
  | cons e es ih =>
    intro rrp hrrp
    rw [shows, List.append_cons]
    exact ih (inv_step h hes.1) hes.2 rrp hrrp

theorem Initialised.inv (h : Initialised number s) :
    ∀ rrp ∈ s.bpd.originalData, Inv number [] rrp := by
  intro rrp hrrp
  obtain ⟨size, hsize, htried⟩ := h.tried rrp hrrp
  refine ⟨?_, fun _ hi => absurd hi List.not_mem_nil, h.views rrp hrrp⟩
  rw [htried, List.length_replicate]
  exact hsize

/-- Of the request's data and the peers, taking a peer changes this. -/
structure Marks (now : Int) (peerIndex : UInt64) (rrp : RrPeerData) (peers : RrPeers) (peer : RrPeer)
    (rrp' : RrPeerData) (peers' : RrPeers) : Prop where
  current : rrp'.current = some peerIndex
  bits : ∀ i, Mem rrp'.tried i ↔ i = peerIndex ∨ Mem rrp.tried i
  size : rrp'.tried.length = rrp.tried.length
  list : rrp'.peers = some peers'
  counted : peers'.peer[peerIndex.toNat]? = some (peer.take now)
  rest : ∀ n, n ≠ peerIndex.toNat → peers'.peer[n]? = peers.peer[n]?
  version : rrp'.config = rrp.config ∧ peers'.config = peers.config

theorem Finds.marks {data : Option RrPeerData} {peerIndex : UInt64} {rrp : RrPeerData}
    {peers : RrPeers} {peer : RrPeer} (h : Finds data peerIndex rrp peers peer)
    (hinv : Inv number earlier rrp) (now : Int) :
    ∃ peers', Marks now peerIndex rrp peers peer (rrp.select peers peerIndex now) peers' := by
  refine ⟨_, rfl, mem_set (h.room hinv), length_set rrp.tried peerIndex, rfl, ?_, ?_, rfl, rfl⟩
  · rw [List.getElem?_modify_eq, h.place]
    rfl
  · intro n hn
    exact List.getElem?_modify_ne _ _ (Ne.symm hn)

/-- What an attempt may do after the `earlier` ones. -/
structure Sound (number : Nat) (earlier : List (Option UInt64)) (peerIndex : UInt64) (now : Int)
    (data : Option RrPeerData) (a : Answer) : Prop where
  word : ∀ n ∈ a.word, n < words number
  taken : a.rc = .ok → some peerIndex ∉ earlier ∧ ∃ rrp peers peer rrp' peers',
    Finds data peerIndex rrp peers peer ∧ peer.Available now ∧ a.data = some rrp' ∧
      Marks now peerIndex rrp peers peer rrp' peers'
  refused : a.rc ≠ .ok → a.data = data

theorem attempt_sound (h : ∀ rrp ∈ s.bpd.originalData, Inv number earlier rrp) {run : GuestRun}
    (hrun : run.Sets) (now : Int) :
    Sound number earlier run.abi.balancerPeerIndex now s.bpd.originalData
      (s.attempt originalGetPeer run now) := by
  have hselects : Selects now run.abi.balancerPeerIndex s.bpd.originalData
      (s.attempt originalGetPeer run now) := attempt_selects hrun now
  cases hselects with
  | missed rc same unread =>
    exact ⟨fun n hn => absurd (unread.symm.trans hn) nofun, fun hok => absurd hok rc, fun _ => same⟩
  | @refused rrp peers peer rc same finds read =>
    refine ⟨?_, fun hok => absurd hok rc, fun _ => same⟩
    intro n hn
    obtain rfl := Option.some.inj (read.symm.trans hn)
    exact finds.word_lt (h rrp finds.seen)
  | @taken rrp peers peer rc finds takes read =>
    have hrrp := h rrp finds.seen
    refine ⟨?_, ?_, fun hne => absurd rc hne⟩
    · intro n hn
      obtain rfl := Option.some.inj (read.symm.trans hn)
      exact finds.word_lt hrrp
    · intro _
      obtain ⟨peers', hmarks⟩ := finds.marks hrrp now
      refine ⟨?_, rrp, peers, peer, _, peers', finds, takes.available, takes.written, hmarks⟩
      exact fun hearlier => takes.untried (hrrp.tried _ hearlier)

/-- **Each peer is tried at most once**: after any attempts of a request, whatever others have done to
the peers meanwhile, an attempt takes a peer only if none before has taken it and it is available, and
then marks that one alone. Otherwise it changes nothing. -/
theorem untried_peer_taken {es : List Event} {run : GuestRun} {now : Int} (h : Initialised number s)
    (hes : Meets (step originalGetPeer) (Allowed number) s es) (hrun : run.Sets) :
    Sound number (shows (step originalGetPeer) (taken originalGetPeer) s es) run.abi.balancerPeerIndex
      now (runFrom (step originalGetPeer) s es).bpd.originalData
      ((runFrom (step originalGetPeer) s es).attempt originalGetPeer run now) :=
  attempt_sound (inv_run h.inv hes) hrun now

/-! A run: the first peer is taken, another worker marks it failed and has the second one up, the guest
asks for the first again and is refused, and takes the second. -/

/-- Two peers, the second one down. -/
def twoPeers : Upstream where
  bpd :=
    { originalData := some
        { peers := some
            { peer :=
                [{ sockaddr := [1], socklen := 1, name := [1] },
                  { sockaddr := [2], socklen := 1, name := [2], down := true }] }
          tried := [0] } }

/-- The guest sets this index. -/
def setsPeer (peerIndex : UInt64) : GuestRun where
  rc := .ok
  abi :=
    { abiInit capBalancer with balancerPeerSet := true, balancerPeerIndex := peerIndex }

/-- The first attempt, a change by another worker, and a second attempt at the same peer. -/
def firstAttempts : List Event :=
  [.attempt (setsPeer 0) 100,
    .others
      { peer :=
          [{ sockaddr := [1], socklen := 1, name := [1], fails := 1, checked := 100 },
            { sockaddr := [2], socklen := 1, name := [2] }] },
    .attempt (setsPeer 0) 101]

/-- nginx's own selection, in a cluster with no live peer. -/
def noLivePeer (pc : PeerConnection) (data : Option RrPeerData) : Answer := { rc := .busy, pc, data }

theorem untried_peer_taken_second :
    shows (step noLivePeer) (taken noLivePeer) twoPeers firstAttempts = [some 0, none, none] ∧
    ((runFrom (step noLivePeer) twoPeers firstAttempts).attempt noLivePeer (setsPeer 1) 102).rc = .ok ∧
    Sound 2 (shows (step noLivePeer) (taken noLivePeer) twoPeers firstAttempts) 1 102
      (runFrom (step noLivePeer) twoPeers firstAttempts).bpd.originalData
      ((runFrom (step noLivePeer) twoPeers firstAttempts).attempt noLivePeer (setsPeer 1) 102) := by
  have hinit : Initialised 2 twoPeers := by
    constructor
    · rintro rrp ⟨⟩
      exact ⟨1, by decide, rfl⟩
    · rintro rrp ⟨⟩ peers ⟨⟩
      exact fun _ => rfl
  have hallowed : Meets (step noLivePeer) (Allowed 2) twoPeers firstAttempts := by
    refine ⟨fun _ => rfl, ?_, fun _ => rfl, trivial⟩
    rintro rrp ⟨⟩
    exact fun _ => rfl
  have hsets : (setsPeer 1).Sets := fun _ => rfl
  exact ⟨by decide, by decide, untried_peer_taken hinit hallowed hsets⟩

end Run

end NgxWasm.Balancer
