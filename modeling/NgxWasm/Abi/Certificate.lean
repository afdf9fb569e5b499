import NgxWasm.Abi.Imports

/-!
# A certificate that is set by halves (`ngx_http_wasm_abi_ssl_set_certificate`)

The certificate is read and installed before the key is read, and the two are compared once both are
installed. No step is taken back where a later one fails. `Path` lists the ways through the function
(`sslSetCertificate_path`).

`Observed` says what OpenSSL is relied on for: `SSL_use_certificate` and `SSL_use_PrivateKey` each
replace the object they are named after, or fail and leave it. What either does to the *other* object
is left open, because libssl does not leave it alone: a certificate drops a private key that does not
match it, and a private key of another type puts the connection on another pair of slots. `Spoils`
therefore asks in each case for the object that the step is not about.

The chain certificates that `PEM_read_bio_X509_AUX` leaves unread, and the references that are freed
on the way, are not modelled.

* `set_certificate_failure_iff`: a call that returns -2 leaves the pair of the connection as it was,
  exactly unless one of the steps it took has changed a part of it.
-/

namespace NgxWasm.Abi

/-! ## What a connection holds -/

/-- The objects of a connection, those that a PEM text gives, and what installing one does. -/
structure Observed (ssl : OpenSsl) where
  X509 : Type
  EvpPkey : Type
  x509 : Bytes → X509
  pkey : Bytes → EvpPkey
  certificate : ssl.Conn → Option X509
  privateKey : ssl.Conn → Option EvpPkey
  useCertificate {cert : Bytes} {conn conn' : ssl.Conn} {ok : Bool}
    (h : ssl.useCertificate cert conn = (ok, conn')) :
    certificate conn' = if ok then some (x509 cert) else certificate conn
  usePrivateKey {key : Bytes} {conn conn' : ssl.Conn} {ok : Bool}
    (h : ssl.usePrivateKey key conn = (ok, conn')) :
    privateKey conn' = if ok then some (pkey key) else privateKey conn

/-- The certificate and the key of a connection. -/
def Observed.pair {ssl : OpenSsl} (o : Observed ssl) (conn : ssl.Conn) :
    Option o.X509 × Option o.EvpPkey := (o.certificate conn, o.privateKey conn)

/-! ## The ways through the function -/

section Path

variable (ssl : OpenSsl) (cert key : Bytes)

/-- The PEM text of a certificate is read. -/
def ReadsX509 : Prop := ssl.memBuf cert = true ∧ ssl.readX509 cert = true

/-- The PEM text of a key is read. -/
def ReadsKey : Prop := ssl.memBuf key = true ∧ ssl.readPrivateKey key = true

/-- How a call on a connection ends: whether it succeeds, and the connection after it. -/
inductive Path (conn : ssl.Conn) : Bool → ssl.Conn → Prop
  | unread (hread : ¬ ReadsX509 ssl cert) : Path conn false conn
  | unused {conn₁ : ssl.Conn} (hread : ReadsX509 ssl cert)
      (huse : ssl.useCertificate cert conn = (false, conn₁)) : Path conn false conn₁
  | keyUnread {conn₁ : ssl.Conn} (hread : ReadsX509 ssl cert)
      (huse : ssl.useCertificate cert conn = (true, conn₁)) (hkey : ¬ ReadsKey ssl key) :
      Path conn false conn₁
  | keyUnused {conn₁ conn₂ : ssl.Conn} (hread : ReadsX509 ssl cert)
      (huse : ssl.useCertificate cert conn = (true, conn₁)) (hkey : ReadsKey ssl key)
      (huseKey : ssl.usePrivateKey key conn₁ = (false, conn₂)) : Path conn false conn₂
  | checked {conn₁ conn₂ : ssl.Conn} (hread : ReadsX509 ssl cert)
      (huse : ssl.useCertificate cert conn = (true, conn₁)) (hkey : ReadsKey ssl key)
      (huseKey : ssl.usePrivateKey key conn₁ = (true, conn₂)) :
      Path conn (ssl.checkPrivateKey conn₂) conn₂

end Path

/-- A text is not read if one of the two calls fails. -/
theorem unread_iff {p q : Bool} : (!p || !q) = true ↔ ¬ (p = true ∧ q = true) := by
  rw [Bool.or_eq_true, Bool.not_eq_true', Bool.not_eq_true', not_and_or, Bool.not_eq_true,
    Bool.not_eq_true]

section Call

variable {W : World} {h : Host W} {m : Mem} {cert key : Slice}

/-- The tests before OpenSSL is called. -/
structure Reaches (cert key : Slice) (h : Host W) (conn : W.ssl.Conn) : Prop where
  capability : h.abi.capabilities &&& capSslCertificateSet ≠ 0
  connected : h.ssl = some conn
  cert : cert.len ≠ 0
  key : key.len ≠ 0

/-- **What the function does with a connection.** -/
theorem sslSetCertificate_path {conn : W.ssl.Conn} (hr : Reaches cert key h conn) :
    ∃ ok conn', Path W.ssl (m.read cert) (m.read key) conn ok conn' ∧
      sslSetCertificate cert key h m =
        (h.withSsl conn').reply m (if ok then wasmOk else wasmError) := by
  obtain ⟨hcap, hconn, hcert, hkey⟩ := hr
  have hsame : h.withSsl conn = h := by
    unfold Host.withSsl
    rw [← hconn]
  unfold sslSetCertificate Host.require
  rw [if_neg hcap, hconn]
  dsimp only
  rw [if_neg (not_or.mpr ⟨hcert, hkey⟩)]
  split
  · rename_i hread
    refine ⟨false, conn, .unread (unread_iff.mp hread), ?_⟩
    rw [hsame]
    rfl
  · rename_i hread
    have hread : ReadsX509 W.ssl (m.read cert) := not_not.mp (mt unread_iff.mpr hread)
    split
    · rename_i conn₁ huse
      exact ⟨false, conn₁, .unused hread huse, rfl⟩
    · rename_i conn₁ huse
      split
      · rename_i hkeyRead
        exact ⟨false, conn₁, .keyUnread hread huse (unread_iff.mp hkeyRead), rfl⟩
      · rename_i hkeyRead
        have hkeyRead : ReadsKey W.ssl (m.read key) := not_not.mp (mt unread_iff.mpr hkeyRead)
        split
        · rename_i conn₂ huseKey
          exact ⟨false, conn₂, .keyUnused hread huse hkeyRead huseKey, rfl⟩
        · rename_i conn₂ huseKey
          exact ⟨_, conn₂, .checked hread huse hkeyRead huseKey, rfl⟩

/-- Without one of the tests the call fails at once. -/
theorem sslSetCertificate_refused (hr : ¬ ∃ conn, Reaches cert key h conn) :
    sslSetCertificate cert key h m = h.reply m wasmError := by
  unfold sslSetCertificate Host.require
  split
  · rfl
  · rename_i hcap
    split
    · rfl
    · rename_i conn hconn
      split
      · rfl
      · rename_i hlen
        obtain ⟨hcert, hkey⟩ := not_or.mp hlen
        exact absurd ⟨conn, hcap, hconn, hcert, hkey⟩ hr

end Call

/-! ## When a failure spoils the pair -/

/-- The call fails, and by then it has changed the pair: with a certificate that was not the
connection's, with a key that was not, or with what a step did to the other object. -/
inductive Spoils {ssl : OpenSsl} (o : Observed ssl) (cert key : Bytes) (conn : ssl.Conn) : Prop
  | unused {conn₁ : ssl.Conn} (hread : ReadsX509 ssl cert)
      (huse : ssl.useCertificate cert conn = (false, conn₁))
      (hnew : o.privateKey conn₁ ≠ o.privateKey conn)
  | keyUnread {conn₁ : ssl.Conn} (hread : ReadsX509 ssl cert)
      (huse : ssl.useCertificate cert conn = (true, conn₁)) (hkey : ¬ ReadsKey ssl key)
      (hnew : o.certificate conn ≠ some (o.x509 cert) ∨ o.privateKey conn₁ ≠ o.privateKey conn)
  | keyUnused {conn₁ conn₂ : ssl.Conn} (hread : ReadsX509 ssl cert)
      (huse : ssl.useCertificate cert conn = (true, conn₁)) (hkey : ReadsKey ssl key)
      (huseKey : ssl.usePrivateKey key conn₁ = (false, conn₂))
      (hnew : o.certificate conn₂ ≠ o.certificate conn ∨ o.privateKey conn₁ ≠ o.privateKey conn)
  | mismatch {conn₁ conn₂ : ssl.Conn} (hread : ReadsX509 ssl cert)
      (huse : ssl.useCertificate cert conn = (true, conn₁)) (hkey : ReadsKey ssl key)
      (huseKey : ssl.usePrivateKey key conn₁ = (true, conn₂))
      (hcheck : ssl.checkPrivateKey conn₂ = false)
      (hnew : o.certificate conn₂ ≠ o.certificate conn ∨ o.privateKey conn ≠ some (o.pkey key))

/-- Two connections hold one pair if no object differs. -/
theorem Observed.pair_eq_iff {ssl : OpenSsl} (o : Observed ssl) {conn conn' : ssl.Conn} :
    o.pair conn' = o.pair conn ↔
      ¬ (o.certificate conn' ≠ o.certificate conn ∨ o.privateKey conn' ≠ o.privateKey conn) := by
  unfold Observed.pair
  rw [Prod.mk.injEq, not_or, not_not, not_not]

/-- **A path that fails keeps the pair**, unless it spoils it. -/
theorem Path.keeps_iff {ssl : OpenSsl} (o : Observed ssl) {cert key : Bytes} {conn conn' : ssl.Conn}
    {ok : Bool} (h : Path ssl cert key conn ok conn') :
    (ok = false → o.pair conn' = o.pair conn) ↔ ¬ Spoils o cert key conn := by
  -- a spoiling call takes the same path, since every step has one result
  cases h with
  | unread hread =>
    refine iff_of_true (fun _ => rfl) ?_
    rintro (⟨hread', -, -⟩ | ⟨hread', -, -, -⟩ | ⟨hread', -, -, -, -⟩ | ⟨hread', -, -, -, -, -⟩)
    all_goals exact hread hread'
  | unused hread huse =>
    rw [o.pair_eq_iff, o.useCertificate huse, imp_iff_right rfl, not_iff_not]
    constructor
    · rintro (hcert | hnew)
      · exact absurd rfl hcert
      · exact .unused hread huse hnew
    · rintro (⟨-, huse', hnew⟩ | ⟨-, huse', -, -⟩ | ⟨-, huse', -, -, -⟩ | ⟨-, huse', -, -, -, -⟩)
      · cases huse.symm.trans huse'
        exact .inr hnew
      all_goals cases huse.symm.trans huse'
  | keyUnread hread huse hkey =>
    rw [o.pair_eq_iff, o.useCertificate huse, imp_iff_right rfl, not_iff_not]
    constructor
    · rintro (hcert | hnew)
      · exact .keyUnread hread huse hkey (.inl hcert.symm)
      · exact .keyUnread hread huse hkey (.inr hnew)
    · rintro (⟨-, huse', -⟩ | ⟨-, huse', -, hnew⟩ | ⟨-, -, hkey', -, -⟩ | ⟨-, -, hkey', -, -, -⟩)
      · cases huse.symm.trans huse'
      · cases huse.symm.trans huse'
        exact hnew.imp_left Ne.symm
      all_goals exact absurd hkey' hkey
  | keyUnused hread huse hkey huseKey =>
    rw [o.pair_eq_iff, o.usePrivateKey huseKey, imp_iff_right rfl, not_iff_not]
    constructor
    · exact .keyUnused hread huse hkey huseKey
    · rintro (⟨-, huse', -⟩ | ⟨-, -, hkey', -⟩ | ⟨-, huse', -, huseKey', hnew⟩ |
        ⟨-, huse', -, huseKey', -, -⟩)
      · cases huse.symm.trans huse'
      · exact absurd hkey hkey'
      · cases huse.symm.trans huse'
        cases huseKey.symm.trans huseKey'
        exact hnew
      · cases huse.symm.trans huse'
        cases huseKey.symm.trans huseKey'
  | checked hread huse hkey huseKey =>
    rw [o.pair_eq_iff, o.usePrivateKey huseKey, ← not_iff_not, Classical.not_imp, not_not, not_not]
    constructor
    · rintro ⟨hcheck, hcert | hnew⟩
      · exact .mismatch hread huse hkey huseKey hcheck (.inl hcert)
      · exact .mismatch hread huse hkey huseKey hcheck (.inr hnew.symm)
    · rintro (⟨-, huse', -⟩ | ⟨-, -, hkey', -⟩ | ⟨-, huse', -, huseKey', -⟩ |
        ⟨-, huse', -, huseKey', hcheck, hnew⟩)
      · cases huse.symm.trans huse'
      · exact absurd hkey hkey'
      · cases huse.symm.trans huse'
        cases huseKey.symm.trans huseKey'
      · cases huse.symm.trans huse'
        cases huseKey.symm.trans huseKey'
        exact ⟨hcheck, hnew.imp_right Ne.symm⟩

/-- **When a failed call keeps the pair.** For every certificate and key text, every host and connection,
and whatever of OpenSSL fails: if the call returns -2 the connection holds the certificate and the key it
held before, exactly unless the call spoils them. -/
theorem set_certificate_failure_iff (W : World) (o : Observed W.ssl) (cert key : Slice) (h : Host W)
    (m : Mem) :
    let r := sslSetCertificate cert key h m
    (r.outcome = .ret (-2) → r.host.ssl.map o.pair = h.ssl.map o.pair) ↔
      ¬ ∃ conn, Reaches cert key h conn ∧ Spoils o (m.read cert) (m.read key) conn := by
  intro r
  by_cases hr : ∃ conn, Reaches cert key h conn
  · obtain ⟨conn, hr⟩ := hr
    obtain ⟨ok, conn', hpath, heq⟩ := sslSetCertificate_path (m := m) hr
    have hspoils : (∃ conn, Reaches cert key h conn ∧ Spoils o (m.read cert) (m.read key) conn) ↔
        Spoils o (m.read cert) (m.read key) conn := by
      constructor
      · rintro ⟨conn'', hr', hspoils⟩
        obtain rfl := Option.some.inj (hr.connected.symm.trans hr'.connected)
        exact hspoils
      · exact fun hspoils => ⟨conn, hr, hspoils⟩
    have hout : r.outcome = .ret (-2) ↔ ok = false := by
      have : r.outcome = .ret (Int32.ofInt (if ok then wasmOk else wasmError)) :=
        congrArg Result.outcome heq
      rw [this]
      cases ok <;> decide
    have hconn : r.host.ssl = some conn' := congrArg (fun r => r.host.ssl) heq
    rw [hspoils, ← hpath.keeps_iff o, hout, hconn, hr.connected, Option.map_some, Option.map_some,
      Option.some.injEq]
  · refine iff_of_true (fun _ => ?_) fun ⟨conn, hreaches, _⟩ => hr ⟨conn, hreaches⟩
    have hhost : r.host = h := congrArg Result.host (sslSetCertificate_refused hr)
    rw [hhost]

/-! ## A new certificate over an old key -/

/-- Connections that hold texts: any text is a certificate, any but the zero byte is a key, and a
pair matches if both are the same. As in libssl, a new certificate drops a key that does not match it,
and a key that does not match the certificate is refused. -/
def textSsl : OpenSsl where
  Conn := Option Bytes × Option Bytes
  servername := fun _ => none
  memBuf := fun _ => true
  readX509 := fun _ => true
  readPrivateKey := fun key => key ≠ [0]
  useCertificate := fun cert conn =>
    (true, (some cert, if conn.2 = some cert then conn.2 else none))
  usePrivateKey := fun key conn =>
    if conn.1 = none ∨ conn.1 = some key then (true, (conn.1, some key)) else (false, conn)
  checkPrivateKey := fun conn => conn.1.isSome && conn.1 == conn.2

theorem textSsl_useCertificate {cert : Bytes} {conn conn' : textSsl.Conn} {ok : Bool}
    (h : textSsl.useCertificate cert conn = (ok, conn')) :
    conn'.1 = if ok then some cert else conn.1 := by
  cases h
  rfl

theorem textSsl_usePrivateKey {key : Bytes} {conn conn' : textSsl.Conn} {ok : Bool}
    (h : textSsl.usePrivateKey key conn = (ok, conn')) :
    conn'.2 = if ok then some key else conn.2 := by
  unfold textSsl at h
  dsimp only at h
  split at h <;> cases h <;> rfl

def textObserved : Observed textSsl where
  X509 := Bytes
  EvpPkey := Bytes
  x509 := id
  pkey := id
  certificate := Prod.fst
  privateKey := Prod.snd
  useCertificate := textSsl_useCertificate
  usePrivateKey := textSsl_usePrivateKey

def textWorld : World := { plainWorld with ssl := textSsl }

/-- A guest in the certificate phase, on a connection with a pair. -/
def textHost : Host textWorld where
  yielded := false
  suspendKind := .none
  abi := abiInit (sslCapabilities .sslCertificate)
  request := none
  ssl := some (some [9], some [9])
  shm := none
  metrics := none
  errorLog := []

/-- The certificate of the connection is installed again, and the key cannot be read: the call returns
-2, and the pair is the one from before. -/
theorem set_certificate_failure_iff_same :
    let r := sslSetCertificate ⟨9, 1⟩ ⟨0, 1⟩ textHost ⟨true, 65536, fun a => a.toUInt8⟩
    r.outcome = .ret (-2) ∧ r.host.ssl.map textObserved.pair = some (some [9], some [9]) := by
  refine ⟨by decide, (set_certificate_failure_iff textWorld textObserved ⟨9, 1⟩ ⟨0, 1⟩ textHost
    ⟨true, 65536, fun a => a.toUInt8⟩).mpr ?_ (by decide)⟩
  rintro ⟨conn, hr, hspoils⟩
  obtain rfl := Option.some.inj hr.connected
  cases hspoils with
  | unused _ huse _ => cases huse
  | keyUnread _ huse _ hnew =>
    cases huse
    exact hnew.elim (absurd rfl) (absurd rfl)
  | keyUnused _ _ hkey _ _ => exact absurd hkey.2 (by decide)
  | mismatch _ _ hkey _ _ _ => exact absurd hkey.2 (by decide)

/-- The key is no key: the call returns -2, and the connection has the new certificate and no key. -/
theorem bad_key_leaves_certificate :
    let r := sslSetCertificate ⟨1, 1⟩ ⟨0, 1⟩ textHost ⟨true, 65536, fun a => a.toUInt8⟩
    r.outcome = .ret (-2) ∧ textHost.ssl.map textObserved.pair = some (some [9], some [9]) ∧
      r.host.ssl.map textObserved.pair = some (some [1], none) := by
  exact ⟨by decide, rfl, rfl⟩

end NgxWasm.Abi
