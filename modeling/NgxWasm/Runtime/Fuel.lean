import NgxWasm.Lib.Run
import NgxWasm.Runtime.Run

/-!
# Fuel is granted once

What a trace says about fuel: how much was granted (`grants`), how much burned (`burned`), how often
a run was suspended (`suspensions`), and whether every start found `fuel_remaining` equal to the
store's fuel and not zero (`Funded`).

The measure is the fuel left in the store. `Account limit spare r t` says that burned and left make
up the limit, and that the suspensions so far, plus `spare` more, fit into what was burned. Every
poll earns a spare one (`Live.poll`), and a suspension spends it.

Of Wasmtime it is assumed that a poll burns at least one unit if there is one left (`Burns`). How
much a poll burns beyond that, where the guest is interrupted and what it returns is open; what it
burns is cut off at what the store has, as there.

* `prepareStore_account`: the one grant. A store that is there gets nothing.
* `startAsync_account`: a future is started with fuel only.
* `run_account`: a run that returns `NGX_AGAIN` has earned its suspension; one that returns `NGX_OK`
  leaves the account in order too.
* `fuel_granted_once`: the account of every sequence of runs that an error ends.
-/

namespace NgxWasm.Runtime

open Lib

/-- The fuel the stores were given. -/
def grants : List Event → List Nat
  | [] => []
  | .setFuel fuel :: t => fuel :: grants t
  | _ :: t => grants t

/-- The fuel burned. -/
def burned : List Event → Nat
  | [] => 0
  | .burn fuel :: t => fuel + burned t
  | _ :: t => burned t

/-- How many runs returned `NGX_AGAIN`. -/
def suspensions : List Event → Nat
  | [] => 0
  | .ret .again _ _ :: t => suspensions t + 1
  | _ :: t => suspensions t

/-- Every start had fuel, and `fuel_remaining` was what the store had. -/
def Funded (t : List Event) : Prop :=
  ∀ kind store fuelRemaining storeFuel, .start kind store fuelRemaining storeFuel ∈ t →
    fuelRemaining = storeFuel ∧ 0 < fuelRemaining

/-- The account of a resume state that has its store. -/
structure Account (limit spare : Nat) (r : Resume) (t : List Event) : Prop where
  store : r.store.isSome = true
  grant : grants t = [limit]
  balance : burned t + r.storeFuel = limit
  suspended : suspensions t + spare + r.storeFuel ≤ limit
  funded : Funded t

/-- The account of a frame. -/
abbrev Acc (limit spare : Nat) (f : Frame) : Prop := Account limit spare f.resume f.trace

/-- An event that says nothing about fuel. -/
def Silent : Event → Prop
  | .setFuel _ | .burn _ | .start .. | .ret .. => False
  | .storeNew _ | .storeDelete _ | .yieldInterval _ | .futureNew _ | .futureDelete _ | .yield
  | .subreq | .log _ => True

theorem Funded.cons {t : List Event} (h : Funded t) {e : Event}
    (he : ∀ kind store a b, e = .start kind store a b → a = b ∧ 0 < a) : Funded (e :: t) := by
  intro kind store a b hm
  rcases List.mem_cons.mp hm with heq | hm
  · exact he kind store a b heq.symm
  · exact h kind store a b hm

section Account

variable {limit spare n : Nat} {r r' : Resume} {t : List Event}

theorem Account.silent (h : Account limit spare r t) {e : Event} (he : Silent e) :
    Account limit spare r (e :: t) := by
  have hf : Funded (e :: t) := h.funded.cons fun _ _ _ _ hs => by
    rw [hs] at he
    exact absurd he id
  cases e <;> first
    | exact absurd he id
    | exact ⟨h.store, h.grant, h.balance, h.suspended, hf⟩

theorem Account.congr (h : Account limit spare r t) (hs : r'.store = r.store) :
    Account limit spare r' t := by
  have hfuel : r'.storeFuel = r.storeFuel := by rw [Resume.storeFuel, hs]; rfl
  exact ⟨by rw [hs]; exact h.store, h.grant, by rw [hfuel]; exact h.balance,
    by rw [hfuel]; exact h.suspended, h.funded⟩

theorem Account.weaken (h : Account limit spare r t) : Account limit 0 r t :=
  ⟨h.store, h.grant, h.balance, by have := h.suspended; omega, h.funded⟩

/-- Burning moves fuel from the store to the burned side; what was there and could burn earns a
suspension. -/
theorem Account.burn (h : Account limit spare r t) (earned : Nat) (he : earned ≤ min n r.storeFuel) :
    Account limit (spare + earned) (r.burn n) (.burn (min n r.storeFuel) :: t) := by
  have hb := h.balance
  have hs := h.suspended
  refine ⟨?_, h.grant, ?_, ?_, h.funded.cons (by simp)⟩
  · rw [Resume.burn, Option.isSome_map]
    exact h.store
  · rw [Resume.burn_storeFuel]
    show min n r.storeFuel + burned t + (r.storeFuel - n) = limit
    omega
  · rw [Resume.burn_storeFuel]
    show suspensions t + (spare + earned) + (r.storeFuel - n) ≤ limit
    omega

end Account

/-- The assumption on Wasmtime: every poll burns at least one unit, if there is one left. -/
structure Burns (env : RunInput) : Prop where
  instantiate : 0 < env.instantiate.poll.burn
  call : 0 < env.call.poll.burn

instance (env : RunInput) : Decidable (Burns env) :=
  decidable_of_iff (0 < env.instantiate.poll.burn ∧ 0 < env.call.poll.burn)
    ⟨fun h => ⟨h.1, h.2⟩, fun h => ⟨h.1, h.2⟩⟩

/-- What a trace may have cost, however the run ended. -/
structure Spent (limit : Nat) (t : List Event) : Prop where
  grant : grants t = [] ∨ grants t = [limit]
  burned : burned t ≤ limit
  suspended : suspensions t ≤ limit
  funded : Funded t

theorem Account.spent {limit spare : Nat} {r : Resume} {t : List Event}
    (h : Account limit spare r t) : Spent limit t :=
  ⟨Or.inr h.grant, by have := h.balance; omega, by have := h.suspended; omega, h.funded⟩

/-- The account of a frame between runs: `fuel_remaining` is the store's fuel, and a future that
is alive has fuel to go on with. -/
structure Settled (limit spare : Nat) (f : Frame) : Prop where
  account : Acc limit spare f
  synced : f.ctx.fuelRemaining = f.storeFuel
  alive : f.resume.future.isSome = true → 0 < f.storeFuel

/-- What a run may return: an account in order, with a suspension to spare for `NGX_AGAIN`. -/
def Exit (limit : Nat) (rc : Rc) (f : Frame) : Prop :=
  Spent limit f.trace ∧ (rc = .again → Settled limit 1 f) ∧ (rc ≠ .error → Settled limit 0 f)

theorem Account.exit_error {limit spare : Nat} {f : Frame} (h : Acc limit spare f) :
    Exit limit .error f := ⟨h.spent, nofun, fun h' => absurd rfl h'⟩

/-- A live future: there is fuel to burn, or a suspension has been earned already. -/
def Live (limit : Nat) (f : Frame) : Prop :=
  Acc limit 0 f ∧ (0 < f.storeFuel ∨ Acc limit 1 f)

/-! ## The pieces of the run -/

section Pieces

variable {limit spare : Nat} {f : Frame}

theorem acc_hostCalls (h : Acc limit spare f) (cs : List HostCall) :
    Acc limit spare (cs.foldl hostCall f) := by
  induction cs generalizing f with
  | nil => exact h
  | cons c cs ih =>
    refine ih ?_
    cases c with
    | yield =>
      simp only [hostCall]
      split
      · exact h.silent (e := .yield) trivial
      · exact h
    | subreq rc =>
      simp only [hostCall]
      split
      · exact h.silent (e := .subreq) trivial
      · exact h
    | other => exact h

theorem Resume.complete_store (r : Resume) (o : Option Outcome) :
    (r.complete o).store = r.store := by
  obtain ⟨_, _, _, h⟩ := r.complete_eq o
  rw [h]

/-- **A poll earns a suspension.** -/
theorem Live.poll (h : Live limit f) {p : Poll} (hp : 0 < p.burn) :
    Acc limit 1 (pollFuture p f) := by
  have hstore : (p.calls.foldl hostCall f).resume.storeFuel = f.resume.storeFuel := by
    rw [hostCalls_resume]
  rcases h with ⟨h₀, hfuel | h₁⟩
  · have hburn := (acc_hostCalls h₀ p.calls).burn (n := p.burn) 1 (by
      rw [hstore]
      have : 0 < f.resume.storeFuel := hfuel
      omega)
    exact hburn.congr (Resume.complete_store _ _)
  · have hburn := (acc_hostCalls h₁ p.calls).burn (n := p.burn) 0 (Nat.zero_le _)
    exact hburn.congr (Resume.complete_store _ _)

theorem acc_clearAsyncFuture (h : Acc limit spare f) : Acc limit spare (clearAsyncFuture f) := by
  have h' : Account limit spare (clearAsyncFuture f).resume f.trace := h.congr rfl
  unfold clearAsyncFuture at *
  cases hf : f.resume.future with
  | none => exact h'
  | some id => exact h'.silent (e := .futureDelete id) trivial

theorem exit_fail (h : Acc limit spare f) {text : String} {post : Frame → Prop} :
    (f.fail text).Sat post (Exit limit) :=
  Account.exit_error (f := f.setError.emit (.log text)) (h.silent (e := .log text) trivial)

/-- After `update_fuel` the context knows what the store has. -/
theorem updateFuel_account (h : Acc limit spare f) {readOk : Bool} {text : String} :
    ((updateFuel readOk text f).onRet Frame.setError).Sat (fun f' => Acc limit spare f' ∧
      f'.resume = f.resume ∧ f'.ctx.fuelRemaining = f'.storeFuel) (Exit limit) := by
  unfold updateFuel
  split
  · exact Account.exit_error (f := (f.emit (.log text)).setError) (h.silent (e := .log text) trivial)
  · exact ⟨h, rfl, rfl⟩

theorem pollIncomplete_account (h : Acc limit 1 f) {fuelReadOk : Bool}
    {fuelText terminalText reason : String} :
    Exit limit (pollIncomplete fuelReadOk fuelText terminalText reason f).1
      (pollIncomplete fuelReadOk fuelText terminalText reason f).2 := by
  unfold pollIncomplete
  refine (updateFuel_account h).finish fun f₁ ⟨h₁, _, hsync⟩ => ?_
  by_cases hzero : f₁.ctx.fuelRemaining = 0
  · rw [if_pos hzero]
    exact Account.exit_error (f := f₁.setError.emit (.log terminalText))
      (h₁.silent (e := .log terminalText) trivial)
  · rw [if_neg hzero]
    have h₂ : Account limit 1 f₁.resume (.log reason :: f₁.trace) :=
      h₁.silent (e := .log reason) trivial
    have hpos : 0 < f₁.storeFuel := by omega
    exact ⟨h₂.spent, fun _ => ⟨h₂, hsync, fun _ => hpos⟩,
      fun _ => ⟨h₂.weaken, hsync, fun _ => hpos⟩⟩

/-- Once a completed future has been deleted nothing is alive, and the fuel is known. -/
theorem pollComplete_account (h : Acc limit spare f) {fuelReadOk : Bool} {fuelText : String} :
    (pollComplete fuelReadOk fuelText f).Sat (fun f' => Acc limit spare f' ∧
      f'.resume.future = none ∧ f'.ctx.fuelRemaining = f'.storeFuel) (Exit limit) := by
  unfold pollComplete
  refine (updateFuel_account (acc_clearAsyncFuture h)).mono (fun f₁ ⟨h₁, hr, hs⟩ => ?_)
    fun _ _ h' => h'
  refine ⟨h₁, ?_, hs⟩
  rw [hr]
  rfl

/-- **A future is started with fuel only**, and is live then. -/
theorem startAsync_account (h : Settled limit 0 f) {kind : FutureKind} {texts : StartTexts}
    {a : Attempt} : (startAsync kind texts a f).Sat (Live limit) (Exit limit) := by
  obtain ⟨hacc, hsync, -⟩ := h
  unfold startAsync
  have hyield : ((prepareAsyncYield a.yieldOk f).onRet Frame.setError).Sat
      (fun f' => Acc limit 0 f' ∧ f'.ctx.fuelRemaining = f'.storeFuel ∧ 0 < f'.storeFuel)
      (Exit limit) := by
    unfold prepareAsyncYield
    by_cases hzero : f.ctx.fuelRemaining = 0
    · rw [if_pos hzero]
      exact Account.exit_error (f := f.setError) hacc
    · rw [if_neg hzero]
      split
      · exact Account.exit_error (f := (f.emit (.log _)).setError)
          (hacc.silent (e := .log _) trivial)
      · have hpos : 0 < f.storeFuel := by omega
        exact ⟨hacc.silent (e := .yieldInterval _) trivial, hsync, hpos⟩
  refine hyield.andThen fun f₁ ⟨h₁, hs₁, hpos₁⟩ => ?_
  have hop : (prepareAsyncOp kind f₁).Sat
      (fun f' => Acc limit 0 f' ∧ f'.ctx.fuelRemaining = f'.storeFuel ∧ 0 < f'.storeFuel)
      (Exit limit) := by
    unfold prepareAsyncOp
    split
    · exact exit_fail h₁
    · split
      · exact exit_fail h₁
      · exact ⟨h₁.congr rfl, hs₁, hpos₁⟩
  refine hop.andThen fun f₂ ⟨h₂, hs₂, hpos₂⟩ => ?_
  -- the start is on record, and may have burned fuel
  have hstart : Account limit 0 f₂.resume
      (.start kind (f₂.resume.store.map Store.id) f₂.ctx.fuelRemaining f₂.storeFuel :: f₂.trace) := by
    refine ⟨h₂.store, h₂.grant, h₂.balance, h₂.suspended, h₂.funded.cons ?_⟩
    rintro _ _ _ _ ⟨⟩
    exact ⟨hs₂, by omega⟩
  have hburn := hstart.burn (n := a.startBurn)
  have hlive : (0 < f₂.storeFuel - a.startBurn ∨ 1 ≤ min a.startBurn f₂.resume.storeFuel) := by
    have : f₂.storeFuel = f₂.resume.storeFuel := rfl
    omega
  unfold askFuture
  cases a.start with
  | future =>
    refine ⟨((hburn 0 (Nat.zero_le _)).silent (e := .futureNew _) trivial).congr rfl, ?_⟩
    rcases hlive with hfuel | hearned
    · refine Or.inl ?_
      show 0 < (f₂.resume.burn a.startBurn).storeFuel
      rw [Resume.burn_storeFuel]
      exact hfuel
    · exact Or.inr (((hburn 1 hearned).silent (e := .futureNew _) trivial).congr rfl)
  | error => exact Account.exit_error (acc_clearAsyncFuture
      (f := ((f₂.emit _).burn _).setError.emit (.log texts.error))
      ((hburn 0 (Nat.zero_le _)).silent (e := .log _) trivial))
  | trap t => exact Account.exit_error (acc_clearAsyncFuture
      (f := ((f₂.emit _).burn _).setError.emit (.log texts.trap))
      ((hburn 0 (Nat.zero_le _)).silent (e := .log _) trivial))
  | null => exact Account.exit_error (acc_clearAsyncFuture
      (f := ((f₂.emit _).burn _).setError.emit (.log texts.null))
      ((hburn 0 (Nat.zero_le _)).silent (e := .log _) trivial))

/-- Where there is a future already, it was left with fuel. -/
theorem Settled.start (h : Settled limit 0 f) {a : Attempt} {kind : FutureKind} {texts : StartTexts} :
    (if f.resume.future.isNone then startAsync kind texts a f else .next f).Sat (Live limit)
      (Exit limit) := by
  refine start_sat (fun hnone => ?_) fun _ => startAsync_account h
  exact ⟨h.account, Or.inl (h.alive (Option.isSome_iff_ne_none.mpr hnone))⟩

theorem instantiateStage_account (h : Settled limit 0 f) {a : Attempt} (hburn : 0 < a.poll.burn) :
    (instantiateStage a f).Sat (Settled limit 0) (Exit limit) := by
  refine instantiateStage_sat (Live limit) (fun f₃ => Acc limit 1 f₃ ∧ f₃.resume.future = none ∧
    f₃.ctx.fuelRemaining = f₃.storeFuel) (fun _ => h) (fun _ => h.start) (fun f₁ h₁ _ => ?_)
    (fun f₁ h₁ _ => ?_) (fun f₃ h₃ _ => ?_) (fun f₃ h₃ _ => ?_) fun f₃ ⟨h₃, hn₃, hs₃⟩ => ?_
  · exact pollIncomplete_account (h₁.poll hburn)
  · exact pollComplete_account (h₁.poll hburn)
  · exact exit_fail (f := { f₃ with resume := { f₃.resume with error := false } }) (h₃.1.congr rfl)
  · exact exit_fail (f := { f₃ with resume := { f₃.resume with trap := none } }) (h₃.1.congr rfl)
  · refine ⟨h₃.weaken.congr rfl, hs₃, fun hsome => ?_⟩
    have hnone : f₃.resume.future.isSome = true := hsome
    rw [hn₃] at hnone
    exact absurd hnone (by simp)

theorem funcStage_account (h : Settled limit 0 f) {exportFound : Bool} :
    (funcStage exportFound f).Sat (Settled limit 0) (Exit limit) := by
  unfold funcStage
  split
  · exact h
  · split
    · exact exit_fail h.account
    · exact ⟨h.account.congr rfl, h.synced, h.alive⟩

theorem callStart_account (h : Settled limit 0 f) {a : Attempt} :
    (callStart a f).Sat (Live limit) (Exit limit) := h.start

theorem callOutcome_account (h : Acc limit 1 f) (hnone : f.resume.future = none)
    (hsync : f.ctx.fuelRemaining = f.storeFuel) :
    Exit limit (callOutcome f).1 (callOutcome f).2 := by
  have halive : f.resume.future.isSome = true → 0 < f.storeFuel := fun hsome => by
    rw [hnone] at hsome
    exact absurd hsome (by simp)
  unfold callOutcome
  split
  · have h' : Acc limit 1 { f with resume := { f.resume with error := false } } := h.congr rfl
    exact Account.exit_error (f := Frame.emit _ (Frame.setError _))
      (h'.silent (e := .log "guest call failed") trivial)
  · split
    · -- suspended by the guest: the poll has earned it
      have hlog : ∀ text, Account limit 1 f.resume (.log text :: f.trace) :=
        fun text => h.silent (e := .log text) trivial
      exact ⟨(hlog _).spent, fun _ => ⟨hlog _, hsync, halive⟩,
        fun _ => ⟨(hlog _).weaken, hsync, halive⟩⟩
    · split
      · have h' : Acc limit 1 { f with resume := { f.resume with trap := none } } := h.congr rfl
        exact Account.exit_error (f := Frame.emit _ (Frame.setError _))
          (h'.silent (e := .log _) trivial)
      · split
        · exact Account.exit_error (f := f.setError.emit (.log _)) (h.silent (e := .log _) trivial)
        · exact ⟨h.spent, nofun, fun _ => ⟨h.weaken, hsync, halive⟩⟩

theorem callPoll_account (h : Live limit f) {p : Poll} (hburn : 0 < p.burn) :
    Exit limit (callPoll p f).1 (callPoll p f).2 := by
  have h₁ := h.poll hburn
  refine callPoll_exit (Exit limit) (fun f₂ => Acc limit 1 f₂ ∧ f₂.resume.future = none ∧
    f₂.ctx.fuelRemaining = f₂.storeFuel) (fun _ => ?_) (fun _ => ?_) fun f₂ ⟨h₂, hn₂, hs₂⟩ => ?_
  · exact pollIncomplete_account h₁
  · exact pollComplete_account h₁
  · exact callOutcome_account h₂ hn₂ hs₂

theorem runBody_account (h : Settled limit 0 f) {env : RunInput} (hburn : Burns env) :
    Exit limit (runBody env f).1 (runBody env f).2 := by
  have h₀ : Settled limit 0 (beginRun f) := ⟨h.account, h.synced, h.alive⟩
  unfold runBody
  refine ((instantiateStage_account h₀ hburn.instantiate).andThen fun f₁ h₁ => ?_).finish
    fun f₂ h₂ => callPoll_account h₂ hburn.call
  exact (funcStage_account h₁).andThen fun f₂ h₂ => callStart_account h₂

end Pieces

/-! ## Runs -/

/-- An execution context that has not run yet. -/
structure Fresh (limit : Nat) (m : Machine) : Prop where
  resume : m.resumeState = none
  limit_eq : m.ctx.fuelLimit = limit
  remaining : m.ctx.fuelRemaining = limit
  grant : grants m.trace = []
  burned : burned m.trace = 0
  suspended : suspensions m.trace = 0
  funded : Funded m.trace

/-- The account of an execution context: what was spent, and, unless a run failed, that it can
go on. -/
structure Machine.Account (limit : Nat) (m : Machine) : Prop where
  spent : Spent limit m.trace
  live : failed m.trace = false → Fresh limit m ∨
    ∃ r, m.resumeState = some r ∧ Settled limit 0 ⟨m.ctx, r, m.nextId, m.trace⟩

theorem Fresh.spent {limit : Nat} {m : Machine} (h : Fresh limit m) : Spent limit m.trace :=
  ⟨Or.inl h.grant, by rw [h.burned]; exact Nat.zero_le _, by rw [h.suspended]; exact Nat.zero_le _,
    h.funded⟩

/-- A run that fails before there is an account has spent nothing. -/
theorem Spent.exit_error {limit : Nat} {f : Frame} (h : Spent limit f.trace) :
    Exit limit .error f := ⟨h, nofun, fun h' => absurd rfl h'⟩

theorem Spent.silent {limit : Nat} {t : List Event} (h : Spent limit t) {e : Event}
    (he : Silent e) : Spent limit (e :: t) := by
  have hf : Funded (e :: t) := h.funded.cons fun _ _ _ _ hs => by
    rw [hs] at he
    exact absurd he id
  cases e <;> first
    | exact absurd he id
    | exact ⟨h.grant, h.burned, h.suspended, hf⟩

/-- **The one grant**: a store that is new gets the limit, one that is there gets nothing. -/
theorem prepareStore_account {limit : Nat} {m : Machine} (h : Fresh limit m) (hpos : 0 < limit)
    {storeNewOk setFuelOk : Bool} :
    (prepareStore storeNewOk setFuelOk ⟨m.ctx, {}, m.nextId, m.trace⟩).Sat (Settled limit 0)
      (Exit limit) := by
  have hlimit : ¬ m.ctx.fuelLimit = 0 := by rw [h.limit_eq]; omega
  unfold prepareStore
  simp only [if_neg hlimit]
  split
  · exact Spent.exit_error (f := Frame.emit _ (Frame.setError _))
      (h.spent.silent (e := .log _) trivial)
  · have hnew : Spent limit (.storeNew m.nextId :: m.trace) :=
      h.spent.silent (e := .storeNew _) trivial
    split
    · exact Spent.exit_error (f := Frame.emit _ (Frame.setError _))
        (hnew.silent (e := .log _) trivial)
    · have hfunded := hnew.funded.cons (e := .setFuel m.ctx.fuelLimit) (by simp)
      refine ⟨⟨rfl, ?_, ?_, ?_, hfunded⟩, ?_, nofun⟩
      · show m.ctx.fuelLimit :: grants m.trace = [limit]
        rw [h.grant, h.limit_eq]
      · show burned m.trace + m.ctx.fuelLimit = limit
        rw [h.burned, h.limit_eq, Nat.zero_add]
      · show suspensions m.trace + 0 + m.ctx.fuelLimit ≤ limit
        rw [h.suspended, h.limit_eq]
        omega
      · show m.ctx.fuelRemaining = m.ctx.fuelLimit
        rw [h.remaining, h.limit_eq]

/-- What a run returns goes on record, and a suspension uses up the spare one. -/
theorem Exit.account {limit : Nat} {rc : Rc} {f : Frame} (h : Exit limit rc f) {state : ExecState}
    {kind : SuspendKind} :
    Machine.Account limit { f.toMachine with trace := .ret rc state kind :: f.trace } := by
  obtain ⟨hspent, hagain, hlive⟩ := h
  have hfunded : Funded (.ret rc state kind :: f.trace) := hspent.funded.cons (by simp)
  by_cases hrc : rc = .again
  · subst hrc
    obtain ⟨hacc, hsync, halive⟩ := hagain rfl
    have hacc' : Runtime.Account limit 0 f.resume (.ret .again state kind :: f.trace) := by
      refine ⟨hacc.store, hacc.grant, hacc.balance, ?_, hfunded⟩
      have := hacc.suspended
      show suspensions f.trace + 1 + 0 + f.resume.storeFuel ≤ limit
      omega
    exact ⟨hacc'.spent, fun _ => Or.inr ⟨f.resume, rfl, hacc', hsync, halive⟩⟩
  · have hsusp : suspensions (.ret rc state kind :: f.trace) = suspensions f.trace := by
      cases rc <;> first | rfl | exact absurd rfl hrc
    refine ⟨⟨hspent.grant, hspent.burned, by rw [hsusp]; exact hspent.suspended, hfunded⟩, fun hno => ?_⟩
    have herr : rc ≠ .error := by
      rintro rfl
      exact absurd hno (by simp [failed])
    obtain ⟨hacc, hsync, halive⟩ := hlive herr
    refine Or.inr ⟨f.resume, rfl, ⟨hacc.store, hacc.grant, hacc.balance, ?_, hfunded⟩, hsync, halive⟩
    rw [hsusp]
    exact hacc.suspended

/-- A run that returned `NGX_ERROR` has spent what it has spent. -/
theorem Spent.account {limit : Nat} {m : Machine} {t : List Event} (h : Spent limit t)
    {state : ExecState} {kind : SuspendKind} (ht : m.trace = .ret .error state kind :: t) :
    m.Account limit := by
  have hfunded : Funded m.trace := by rw [ht]; exact h.funded.cons (by simp)
  refine ⟨⟨by rw [ht]; exact h.grant, by rw [ht]; exact h.burned, by rw [ht]; exact h.suspended,
    hfunded⟩, fun hno => ?_⟩
  rw [ht] at hno
  exact absurd hno (by simp [failed])

/-- **One run keeps the account.** -/
theorem run_account {limit : Nat} {m : Machine} (h : m.Account limit) (hf : failed m.trace = false)
    (hpos : 0 < limit) {env : RunInput} (hburn : Burns env) : (run env m).2.Account limit := by
  have hbody : Exit limit
      ((prepareStore env.storeNewOk env.setFuelOk
        ⟨m.ctx, m.resumeState.getD {}, m.nextId, m.trace⟩).finish (runBody env)).1
      ((prepareStore env.storeNewOk env.setFuelOk
        ⟨m.ctx, m.resumeState.getD {}, m.nextId, m.trace⟩).finish (runBody env)).2 := by
    rcases h.live hf with hfresh | ⟨r, hr, hset⟩
    · rw [hfresh.resume]
      exact (prepareStore_account hfresh hpos).finish fun f hf => runBody_account hf hburn
    · rw [hr]
      obtain ⟨s, hs⟩ := Option.isSome_iff_exists.mp hset.account.store
      have hs' : r.store = some s := hs
      have hnext : prepareStore env.storeNewOk env.setFuelOk ⟨m.ctx, r, m.nextId, m.trace⟩ =
          .next ⟨m.ctx, r, m.nextId, m.trace⟩ := by
        unfold prepareStore
        simp only [hs']
      rw [Option.getD_some, hnext]
      exact runBody_account hset hburn
  unfold run runUnlogged
  split
  · exact (h.spent.silent (e := .log _) trivial).account rfl
  · split
    · exact (h.spent.silent (e := .log _) trivial).account rfl
    · split
      · exact h.spent.account rfl
      · exact hbody.account

/-- What the account comes to. -/
structure FuelBounded (limit : Nat) (t : List Event) : Prop where
  /-- Fuel is set at most once, to the limit. -/
  grant : grants t = [] ∨ grants t = [limit]
  burned : burned t ≤ limit
  /-- A future is only asked for with fuel, of which the context knows. -/
  funded : ∀ kind store fuelRemaining storeFuel,
    .start kind store fuelRemaining storeFuel ∈ t → fuelRemaining = storeFuel ∧ 0 < fuelRemaining
  suspended : suspensions t ≤ limit

/-- **Fuel is granted once.** Whatever the guest and Wasmtime do, as long as every poll burns
something: over all the runs of an execution context, up to the first that fails, no more fuel
burns than the limit, and the runs are suspended no more often than that. -/
theorem fuel_granted_once (runtimeReady moduleLoaded : Bool) (phaseKind : Phase)
    (fuelLimit timesliceFuel : Nat) (hlimit : 0 < fuelLimit) (envs : List RunInput)
    (hburn : ∀ env ∈ envs, Burns env) :
    FuelBounded fuelLimit (runFrom runStep
      (initExecCtx runtimeReady moduleLoaded phaseKind fuelLimit timesliceFuel) envs).trace := by
  have hfresh : Fresh fuelLimit
      (initExecCtx runtimeReady moduleLoaded phaseKind fuelLimit timesliceFuel) :=
    ⟨rfl, rfl, rfl, rfl, rfl, rfl, fun _ _ _ _ hm => absurd hm List.not_mem_nil⟩
  have hstep : ∀ m env, Machine.Account fuelLimit m → Burns env →
      Machine.Account fuelLimit (runStep m env) := by
    intro m env h hb
    unfold runStep
    by_cases hf : failed m.trace = true
    · rw [if_pos hf]
      exact h
    · rw [if_neg hf]
      exact run_account h (Bool.eq_false_iff.mpr hf) hlimit hb
  have h0 : (initExecCtx runtimeReady moduleLoaded phaseKind fuelLimit timesliceFuel).Account
      fuelLimit := ⟨hfresh.spent, fun _ => Or.inl hfresh⟩
  obtain ⟨hspent, -⟩ := (meets_of_forall hburn).invariant h0 hstep
  exact ⟨hspent.grant, hspent.burned, hspent.funded, hspent.suspended⟩

/-- A guest that needs three timeslices of two units, then yields, and runs out at the end. -/
theorem fuel_granted_once_timeslices :
    let slice : Attempt := ⟨true, .future, 1, ⟨[], 2, none, true⟩⟩
    let ready : Attempt := ⟨true, .future, 1, ⟨[], 1, some (.value (.i32 0)), true⟩⟩
    let yields : Attempt := ⟨true, .future, 1, ⟨[.yield], 2, some (.value (.i32 0)), true⟩⟩
    let envs : List RunInput :=
      [⟨true, true, true, slice, true, slice⟩, ⟨true, true, true, ready, true, slice⟩,
        ⟨true, true, true, ready, true, slice⟩, ⟨true, true, true, ready, true, yields⟩,
        ⟨true, true, true, ready, true, slice⟩]
    let t := (runFrom runStep (initExecCtx true true .content 11 2) envs).trace
    FuelBounded 11 t ∧ burned t = 11 ∧ suspensions t = 4 := by
  intro slice ready yields envs t
  exact ⟨fuel_granted_once true true .content 11 2 (by decide) envs (by decide), by decide,
    by decide⟩

end NgxWasm.Runtime
