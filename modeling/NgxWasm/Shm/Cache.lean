import NgxWasm.Lib.Recency
import NgxWasm.Shm.DecimalText
import NgxWasm.Shm.Zone

/-!
# What the store is for: one list of entries, most recently used first

The abstract store has no tree, no queue, no chunks and no hashes. It is a list of entries; an
entry past its expiry counts as absent.

`Next` says what each operation answers and what it leaves, as a relation: how many entries a write
evicts, and whether it then succeeds, is up to the allocator. The operations come in three groups,
each one definition with parameters:

* `Reads`: `get` and `exists` move the live entry to the front.
* `Stores`: `set`, `set_ex`, `add` and `replace` differ in whether the key has to be there or has to
  be missing. The write itself is `Write`. Evictions are taken from the back of the list and pass
  over the entry being written.
* `Increments`: the number the entry's text stands for, plus `delta`, is written back.

Nothing here is translated from the source; `Shm.Refine` connects it to the zone, and what the
answers of a zone tell (`Shm.History`, `Shm.Recent`) is then proved on the list.
-/

namespace NgxWasm.Shm

open Lib

/-- An entry; `expiry` is the first clock reading at which it counts as absent. -/
structure Entry where
  key : Bytes
  value : Bytes
  expiry : Option Nat
  deriving Repr, DecidableEq

/-- The entries, most recently used first. -/
abbrev Cache := List Entry

def Entry.expired (nowMsec : Nat) (e : Entry) : Bool :=
  match e.expiry with
  | none => false
  | some t => decide (t ≤ nowMsec)

namespace Cache

/-- The entry of a key. -/
def find (key : Bytes) (l : Cache) : Option Entry := l.find? fun e => e.key == key

/-- The other entries, in their order. -/
def without (key : Bytes) (l : Cache) : Cache := l.filter fun e => e.key != key

/-- The entry of `key` dropped if it has expired. -/
def purge (nowMsec : Nat) (key : Bytes) (l : Cache) : Cache :=
  l.filter fun e => !(e.key == key && e.expired nowMsec)

/-- The list after `n` evictions that pass over the entry of `key`. -/
def evicted (key : Bytes) (n : Nat) (l : Cache) : Cache := evictMany (fun e => e.key == key) n l

/-- Writing the entry `e`. Over a value of the same length it always succeeds. Otherwise some
entries may be evicted first, at most 32, and the write fails only when that many were, or when no
other entry is left. -/
inductive Write (e : Entry) (l : Cache) : Int → Cache → Prop
  | inPlace {old : Entry} (h : find e.key l = some old) (hlen : old.value.length = e.value.length) :
      Write e l wasmOk (e :: without e.key l)
  | stored {n : Nat} (h : ∀ old ∈ find e.key l, old.value.length ≠ e.value.length)
      (hn : n < maxAttempts) : Write e l wasmOk (e :: without e.key (evicted e.key n l))
  | failed {n : Nat} (h : ∀ old ∈ find e.key l, old.value.length ≠ e.value.length)
      (hn : n ≤ maxAttempts)
      (hend : n = maxAttempts ∨ ∀ x ∈ evicted e.key n l, x.key = e.key) :
      Write e l wasmError (evicted e.key n l)

/-- A writer that needs the key to be there, or to be missing, finds the opposite. -/
def Refused (requireExists requireMissing : Bool) (live : Option Entry) : Prop :=
  (requireExists = true ∧ live = none) ∨ (requireMissing = true ∧ live ≠ none)

instance (requireExists requireMissing : Bool) (live : Option Entry) :
    Decidable (Refused requireExists requireMissing live) :=
  inferInstanceAs (Decidable (_ ∨ _))

/-- `set`, `set_ex`, `add` and `replace`: the arguments are checked, an expired entry is dropped,
and the entry is written unless the key is there and must not be, or is missing and must be. -/
def Stores (nowMsec : Nat) (e : Entry) (requireExists requireMissing : Bool) (l : Cache)
    (reply : Reply) (l' : Cache) : Prop :=
  if keyValid e.key = false ∨ e.value.length > maxValueLen then
    reply = { rc := wasmError } ∧ l' = l
  else
    let live := purge nowMsec e.key l
    if Refused requireExists requireMissing (find e.key live) then
      reply = { rc := wasmNotFound } ∧ l' = live
    else ∃ rc, Write e live rc l' ∧ reply = { rc := rc }

/-- `incr`: the number the live entry's text stands for, plus `delta`, is written back with the
entry's expiry, if there is such an entry and the sum fits 32 bits. -/
def Increments (nowMsec : Nat) (key : Bytes) (delta : Int) (l : Cache) (reply : Reply) (l' : Cache) :
    Prop :=
  if keyValid key = false ∨ delta < int32Min ∨ delta > int32Max then
    reply = { rc := wasmError } ∧ l' = l
  else
    let live := purge nowMsec key l
    match find key live with
    | none => reply = { rc := wasmError } ∧ l' = live
    | some e =>
      match readI32 e.value with
      | none => reply = { rc := wasmError } ∧ l' = live
      | some current =>
        if current + delta < int32Min ∨ current + delta > int32Max then
          reply = { rc := wasmError } ∧ l' = live
        else
          ∃ rc, Write ⟨key, intText (current + delta), e.expiry⟩ live rc l' ∧
            reply = { rc := if rc = wasmOk then current + delta else rc }

/-- Reading: the answer `reply` gives for the live entry, which moves to the front, or
`missing`. -/
def Reads (nowMsec : Nat) (key : Bytes) (found : Entry → Reply) (missing : Int) (l : Cache)
    (reply : Reply) (l' : Cache) : Prop :=
  if keyValid key = false then reply = { rc := wasmError } ∧ l' = l
  else
    let live := purge nowMsec key l
    match find key live with
    | none => reply = { rc := missing } ∧ l' = live
    | some e => reply = found e ∧ l' = e :: without key live

/-- **The abstract store**: what an operation at the clock `nowMsec` answers and leaves. -/
def Next (nowMsec : Nat) (op : Op) (l : Cache) (reply : Reply) (l' : Cache) : Prop :=
  match op with
  | .get key bufLen =>
    Reads nowMsec key (fun e => { rc := e.value.length, bytes := e.value.take bufLen }) wasmNotFound
      l reply l'
  | .exists key => Reads nowMsec key (fun _ => { rc := 1 }) 0 l reply l'
  | .incr key delta => Increments nowMsec key delta l reply l'
  | .set key value => Stores nowMsec ⟨key, value, none⟩ false false l reply l'
  | .setEx key value ttlMsec =>
    Stores nowMsec ⟨key, value, if ttlMsec = 0 then none else some (nowMsec + ttlMsec.toNat)⟩
      false false l reply l'
  | .add key value => Stores nowMsec ⟨key, value, none⟩ false true l reply l'
  | .replace key value => Stores nowMsec ⟨key, value, none⟩ true false l reply l'
  | .delete key =>
    if keyValid key = false then reply = { rc := wasmError } ∧ l' = l
    else reply = { rc := wasmOk } ∧ l' = without key l

end Cache

end NgxWasm.Shm
