import NgxWasm.Abi.Run
import NgxWasm.Config.Blocks

/-!
# The hooks of a TLS handshake (`src/ngx_http_wasm_module.c`)

OpenSSL calls `ssl_servername` once it knows the server's name, and `ssl_certificate` before it uses
a certificate; `ssl_init` installs both. Each runs a guest in an execution context of its own, which
is never resumed, and tells OpenSSL whether to go on.

The two callbacks begin with the same conditions and end differently: the first returns a result and
an alert, the second 1 or 0. `Ruled` is what they have in common, and `HelloRuled` and
`CertificateRuled` are each callback's own.

What nginx makes of the server's name is a parameter, and may change the connection's configuration. It
may refuse the handshake by itself, and then no guest runs. The guest is one of `Abi.Run`, and what its
imports do to the certificate of the connection is in `Abi.Certificate`. An OpenSSL without the error
code for a failed certificate callback, which the build refuses the hook for, is left out.

* `called_verdict`: what is left of a guest's verdict is the alert of its last rejection.
* `sslInit_installed`: the servers have the callbacks of the hooks they configure.
* `handshake_fails_closed`: OpenSSL may go on exactly if the guest of the hook returns 0 and has not
  rejected the handshake.

The names are those of the source without the prefix `ngx_http_wasm_`.
-/

namespace NgxWasm.Tls

open NgxWasm.Abi
open NgxWasm.Runtime (Completes Machine Phase)

/-! ## The callbacks -/

section Callbacks

variable {W : World}

/-- The two hooks of a handshake. -/
inductive TlsHook where
  | clientHello
  | certificate
  deriving Repr, DecidableEq

def TlsHook.phase : TlsHook → Phase
  | .clientHello => .sslClientHello
  | .certificate => .sslCertificate

/-- What `hc->conf_ctx` gives the module: the server's configuration, and whether `wmcf->runtime`,
where there is one, has an engine and a linker. -/
structure ConfCtx where
  wcf : Option Config.Conf
  runtime : Option Bool

/-- A connection: `hc->conf_ctx`, the connection of OpenSSL, `c->ssl->handshake_rejected` and the
log. -/
structure Connection (W : World) where
  confCtx : Option ConfCtx
  ssl : W.ssl.Conn
  handshakeRejected : Bool
  errorLog : List (UInt64 × Bytes)

/-- The hook's configuration, if the connection has one to run: the conditions both callbacks begin
with. -/
def Connection.configured (hook : TlsHook) (c : Connection W) : Option (Config.Conf × Bool) :=
  match c.confCtx with
  | some ⟨some wcf, some ready⟩ =>
    if (wcf.phase hook.phase).set = 1 then some (wcf, ready) else none
  | _ => none

/-- `runtime_init_ssl_exec_ctx`, and the fuel both callbacks set. -/
def initSslExecCtx (hook : TlsHook) (wcf : Config.Conf) (ready : Bool) : Machine :=
  Runtime.initExecCtx ready (wcf.phase hook.phase).module.isSome hook.phase wcf.fuelLimit 0

/-- The host with its ABI context: no request, and no zones. -/
def Connection.host (hook : TlsHook) (c : Connection W) : Host W where
  yielded := false
  suspendKind := .none
  abi := abiInit (sslCapabilities hook.phase)
  request := none
  ssl := some c.ssl
  shm := none
  metrics := none
  errorLog := c.errorLog

/-- The connection after a guest. -/
def Connection.after (c : Connection W) (h : Host W) : Connection W :=
  { c with ssl := h.ssl.getD c.ssl, errorLog := h.errorLog }

/-- The guest of a hook, run on the connection. -/
def runHook (hook : TlsHook) (g : Guest) (wcf : Config.Conf) (ready : Bool) (c : Connection W) :
    Rc × Host W :=
  let r := g.run (initSslExecCtx hook wcf ready) (c.host hook)
  (r.1, r.2.2)

/-- `SSL_TLSEXT_ERR_OK` and the others. -/
inductive TlsextErr where
  | ok
  | alertWarning
  | alertFatal
  | noack
  deriving Repr, DecidableEq

/-- `SSL_AD_INTERNAL_ERROR`. -/
def sslAdInternalError : Int := 80

/-- What the servername callback gives back: its result, `*ad`, and the connection. -/
structure Hello (W : World) where
  rc : TlsextErr
  ad : Int
  conn : Connection W

/-- `ssl_servername`, which asks `ngx_http_ssl_servername` first. -/
def sslServername (ngxHttpSslServername : Int → Connection W → Hello W) (g : Guest) (ad : Int)
    (c : Connection W) : Hello W :=
  let nginx := ngxHttpSslServername ad c
  if nginx.rc ≠ .ok then nginx
  else
    match nginx.conn.configured .clientHello with
    | none => nginx
    | some (wcf, ready) =>
      let r := runHook .clientHello g wcf ready nginx.conn
      let conn := nginx.conn.after r.2
      if r.1 ≠ .ok then ⟨.alertFatal, sslAdInternalError, conn⟩
      else if r.2.abi.sslHandshakeRejected then
        ⟨.alertFatal, r.2.abi.sslHandshakeAlert, { conn with handshakeRejected := true }⟩
      else ⟨.ok, nginx.ad, conn⟩

/-- `ssl_certificate`: 1 or 0, and the connection. -/
def sslCertificate (g : Guest) (c : Connection W) : Bool × Connection W :=
  match c.configured .certificate with
  | none => (false, c)
  | some (wcf, ready) =>
    let r := runHook .certificate g wcf ready c
    let conn := c.after r.2
    if r.1 ≠ .ok then (false, conn)
    else if r.2.abi.sslHandshakeRejected then (false, { conn with handshakeRejected := true })
    else (true, conn)

/-! ## Installing them -/

/-- The callbacks of an `SSL_CTX`. -/
structure SslCtx where
  /-- `ngx_ssl_set_client_hello_callback`. -/
  clientHello : Bool := false
  /-- `SSL_CTX_set_tlsext_servername_callback`. -/
  servername : Bool := false
  /-- `SSL_CTX_set_cert_cb`. -/
  cert : Bool := false
  deriving DecidableEq

/-- A server: what the module has for it, and its `ssl.ctx`. -/
structure SslServer where
  wcf : Option Config.Conf
  ssl : Option SslCtx

/-- What OpenSSL and nginx answer to the installation of the two callbacks of the client hello. -/
structure Installs where
  clientHelloOk : Bool
  servernameOk : Bool

/-- `ssl_init` on one server. Without `tlsext` support there is only a warning. -/
def sslInitServer (answers : Installs) (s : SslServer) : Option SslServer :=
  match s.wcf, s.ssl with
  | some wcf, some ctx =>
    let hello : Option SslCtx :=
      if (wcf.phase .sslClientHello).set = 1 then
        if !answers.clientHelloOk then none
        else some { ctx with
          clientHello := true
          servername := ctx.servername || answers.servernameOk }
      else some ctx
    hello.map fun ctx =>
      if (wcf.phase .sslCertificate).set = 1 then { s with ssl := some { ctx with cert := true } }
      else { s with ssl := some ctx }
  | _, _ => some s

/-- `ssl_init`. -/
def sslInit : List (Installs × SslServer) → Option (List SslServer)
  | [] => some []
  | (answers, s) :: rest =>
    (sslInitServer answers s).bind fun s => (sslInit rest).map (s :: ·)

end Callbacks

/-! ## What a hook comes to -/

section Ruled

variable {W : World} {hook : TlsHook} {c : Connection W}

/-- What a guest has said so far: the alert of its last rejection. -/
def verdict (h : Host W) : Option Int :=
  if h.abi.sslHandshakeRejected then some h.abi.sslHandshakeAlert else none

/-- The alerts of the rejections that were accepted. -/
def alerts (g : Guest) (m : Machine) (h : Host W) : List Int :=
  (asked hostSslRejectHandshake (g.answers m h)).map fun args => (argOf args 0).toInt

/-- **All calls of a guest** leave the alert of its last rejection. -/
theorem called_verdict (g : Guest) (m : Machine) {h : Host W}
    (hno : h.abi.sslHandshakeRejected = false) :
    verdict (g.called m h).2 = (alerts g m h).getLast? := by
  have hset := sets_verdict.called g m h
  unfold alerts
  rw [List.getLast?_map]
  cases hlast : (asked hostSslRejectHandshake (g.answers m h)).getLast? with
  | none =>
    rw [hlast] at hset
    obtain ⟨hrejected, -⟩ := Prod.mk.inj hset
    unfold verdict
    rw [hrejected, hno]
    rfl
  | some args =>
    rw [hlast] at hset
    obtain ⟨hrejected, halert⟩ := Prod.mk.inj hset
    unfold verdict
    rw [hrejected, halert]
    rfl

theorem initSslExecCtx_rests (hook : TlsHook) (wcf : Config.Conf) (ready : Bool) :
    Runtime.Rests wcf.fuelLimit 0 (initSslExecCtx hook wcf ready) := by
  refine .fresh rfl ?_ rfl rfl rfl rfl
  cases hook <;> rfl

/-- What a hook comes to: its guest completes or not, and what it has said if it does. -/
structure Ran (hook : TlsHook) (g : Guest) (c : Connection W) (wcf : Config.Conf) (ready : Bool) :
    Prop where
  ok_iff : (runHook hook g wcf ready c).1 = .ok ↔
    Completes (g.env (initSslExecCtx hook wcf ready) (c.host hook)) (initSslExecCtx hook wcf ready)
  verdict : (runHook hook g wcf ready c).1 = .ok →
    Tls.verdict (runHook hook g wcf ready c).2 =
      (alerts g (initSslExecCtx hook wcf ready) (c.host hook)).getLast?
  ssl : hook = .clientHello → (c.after (runHook hook g wcf ready c).2).ssl = c.ssl

theorem runHook_ran (hook : TlsHook) (g : Guest) (c : Connection W) (wcf : Config.Conf)
    (ready : Bool) : Ran hook g c wcf ready where
  ok_iff := (initSslExecCtx_rests hook wcf ready).run_ok_iff
  verdict hok := by
    have hcalled : (runHook hook g wcf ready c).2 = _ :=
      Guest.run_called (initSslExecCtx_rests hook wcf ready) hok
    rw [hcalled, called_verdict g _ rfl]
  ssl hk := by
    subst hk
    have hcaps : (c.host .clientHello).abi.capabilities = phaseCapabilities .sslClientHello := rfl
    have hssl : (runHook .clientHello g wcf ready c).2.ssl = some c.ssl :=
      Guest.run_confined hcaps (p := .ssl) (by decide)
    show ((runHook .clientHello g wcf ready c).2.ssl).getD c.ssl = c.ssl
    rw [hssl]
    rfl

/-- The guest lets the handshake go on: its export returns 0, and no rejection was accepted. -/
def Accepts (hook : TlsHook) (g : Guest) (c : Connection W) (wcf : Config.Conf) (ready : Bool) :
    Prop :=
  Completes (g.env (initSslExecCtx hook wcf ready) (c.host hook)) (initSslExecCtx hook wcf ready) ∧
    alerts g (initSslExecCtx hook wcf ready) (c.host hook) = []

/-- The guest rejects the handshake: its export returns 0, and this is the alert it gave last. -/
def Rejects (hook : TlsHook) (g : Guest) (c : Connection W) (wcf : Config.Conf) (ready : Bool)
    (alert : Int) : Prop :=
  Completes (g.env (initSslExecCtx hook wcf ready) (c.host hook)) (initSslExecCtx hook wcf ready) ∧
    (alerts g (initSslExecCtx hook wcf ready) (c.host hook)).getLast? = some alert

/-- How a callback comes out on a connection that has the hook: whether OpenSSL may go on, and the
connection after it. -/
structure Ruled (hook : TlsHook) (g : Guest) (c : Connection W) (wcf : Config.Conf) (ready : Bool)
    (goesOn : Prop) (c' : Connection W) : Prop where
  goesOn_iff : goesOn ↔ Accepts hook g c wcf ready
  rejected_iff : c'.handshakeRejected = true ↔
    c.handshakeRejected = true ∨ ∃ alert, Rejects hook g c wcf ready alert
  confCtx : c'.confCtx = c.confCtx
  ssl : hook = .clientHello → c'.ssl = c.ssl

/-- The three ways through the end of a callback. -/
theorem runHook_cases (hook : TlsHook) (g : Guest) (c : Connection W) (wcf : Config.Conf)
    (ready : Bool) :
    ((runHook hook g wcf ready c).1 ≠ .ok ∧
      ¬ Completes (g.env (initSslExecCtx hook wcf ready) (c.host hook))
        (initSslExecCtx hook wcf ready)) ∨
    ((runHook hook g wcf ready c).1 = .ok ∧
      (runHook hook g wcf ready c).2.abi.sslHandshakeRejected = true ∧
      Rejects hook g c wcf ready (runHook hook g wcf ready c).2.abi.sslHandshakeAlert) ∨
    ((runHook hook g wcf ready c).1 = .ok ∧
      (runHook hook g wcf ready c).2.abi.sslHandshakeRejected = false ∧
      Accepts hook g c wcf ready) := by
  have hran := runHook_ran hook g c wcf ready
  by_cases hok : (runHook hook g wcf ready c).1 = .ok
  · have hcompletes := hran.ok_iff.mp hok
    have hverdict := hran.verdict hok
    unfold verdict at hverdict
    cases hrejected : (runHook hook g wcf ready c).2.abi.sslHandshakeRejected with
    | true =>
      rw [if_pos hrejected] at hverdict
      exact .inr (.inl ⟨hok, rfl, hcompletes, hverdict.symm⟩)
    | false =>
      rw [if_neg (by simp [hrejected])] at hverdict
      exact .inr (.inr ⟨hok, rfl, hcompletes, List.getLast?_eq_none_iff.mp hverdict.symm⟩)
  · exact .inl ⟨hok, fun hcompletes => hok (hran.ok_iff.mpr hcompletes)⟩

theorem Accepts.not_rejects {g : Guest} {wcf : Config.Conf} {ready : Bool}
    (h : Accepts hook g c wcf ready) (alert : Int) : ¬ Rejects hook g c wcf ready alert := by
  rintro ⟨-, hlast⟩
  rw [h.2] at hlast
  cases hlast

/-- A callback that does not go on, because its guest is not done. -/
theorem Ruled.failed {g : Guest} {wcf : Config.Conf} {ready : Bool} {goesOn : Prop}
    (hno : ¬ Completes (g.env (initSslExecCtx hook wcf ready) (c.host hook))
      (initSslExecCtx hook wcf ready)) (hstop : ¬ goesOn) :
    Ruled hook g c wcf ready goesOn (c.after (runHook hook g wcf ready c).2) where
  goesOn_iff := ⟨fun h => absurd h hstop, fun h => absurd h.1 hno⟩
  rejected_iff := (or_iff_left fun ⟨_, h⟩ => hno h.1).symm
  confCtx := rfl
  ssl := (runHook_ran hook g c wcf ready).ssl

/-- Or because its guest has rejected the handshake. -/
theorem Ruled.rejected {g : Guest} {wcf : Config.Conf} {ready : Bool} {goesOn : Prop} {alert : Int}
    (hrejects : Rejects hook g c wcf ready alert) (hstop : ¬ goesOn) :
    Ruled hook g c wcf ready goesOn
      { c.after (runHook hook g wcf ready c).2 with handshakeRejected := true } where
  goesOn_iff := ⟨fun h => absurd h hstop, fun h => absurd hrejects (h.not_rejects alert)⟩
  rejected_iff := ⟨fun _ => .inr ⟨alert, hrejects⟩, fun _ => rfl⟩
  confCtx := rfl
  ssl := (runHook_ran hook g c wcf ready).ssl

/-- A callback that goes on. -/
theorem Ruled.accepted {g : Guest} {wcf : Config.Conf} {ready : Bool} {goesOn : Prop}
    (haccepts : Accepts hook g c wcf ready) (hgo : goesOn) :
    Ruled hook g c wcf ready goesOn (c.after (runHook hook g wcf ready c).2) where
  goesOn_iff := ⟨fun _ => haccepts, fun _ => hgo⟩
  rejected_iff := (or_iff_left fun ⟨_, h⟩ => haccepts.not_rejects _ h).symm
  confCtx := rfl
  ssl := (runHook_ran hook g c wcf ready).ssl

/-- What the servername callback comes to, `nginx` being what `ngx_http_ssl_servername` gave. -/
structure HelloRuled (nginx : Hello W) (g : Guest) (r : Hello W) : Prop where
  goesOn_iff : r.rc = .ok ↔ nginx.rc = .ok ∧
    ∀ p ∈ nginx.conn.configured .clientHello, Accepts .clientHello g nginx.conn p.1 p.2
  refused : nginx.rc ≠ .ok → r = nginx
  alert : nginx.rc = .ok → ∀ p ∈ nginx.conn.configured .clientHello, r.rc ≠ .ok →
    r.rc = .alertFatal ∧
      (Rejects .clientHello g nginx.conn p.1 p.2 r.ad ∨
        r.ad = sslAdInternalError ∧ ∀ alert, ¬ Rejects .clientHello g nginx.conn p.1 p.2 alert)
  rejected_iff : r.conn.handshakeRejected = true ↔ nginx.conn.handshakeRejected = true ∨
    nginx.rc = .ok ∧ ∃ p ∈ nginx.conn.configured .clientHello,
      ∃ alert, Rejects .clientHello g nginx.conn p.1 p.2 alert
  ssl : r.conn.ssl = nginx.conn.ssl

/-- What the certificate callback comes to. -/
structure CertificateRuled (c : Connection W) (g : Guest) (r : Bool × Connection W) : Prop where
  goesOn_iff : r.1 = true ↔ ∃ p ∈ c.configured .certificate, Accepts .certificate g c p.1 p.2
  rejected_iff : r.2.handshakeRejected = true ↔ c.handshakeRejected = true ∨
    ∃ p ∈ c.configured .certificate, ∃ alert, Rejects .certificate g c p.1 p.2 alert

/-- A ruling of the hook on the one configuration there is. -/
theorem HelloRuled.of_ruled {nginx r : Hello W} {g : Guest} {wcf : Config.Conf} {ready : Bool}
    (hok : nginx.rc = .ok) (hc : nginx.conn.configured .clientHello = some (wcf, ready))
    (h : Ruled .clientHello g nginx.conn wcf ready (r.rc = .ok) r.conn)
    (halert : r.rc ≠ .ok → r.rc = .alertFatal ∧
      (Rejects .clientHello g nginx.conn wcf ready r.ad ∨
        r.ad = sslAdInternalError ∧
          ∀ alert, ¬ Rejects .clientHello g nginx.conn wcf ready alert)) :
    HelloRuled nginx g r where
  goesOn_iff := by
    rw [hc, h.goesOn_iff]
    exact ⟨fun ha => ⟨hok, fun p hp => Option.some.inj hp ▸ ha⟩, fun ha => ha.2 _ rfl⟩
  refused hno := absurd hok hno
  alert _ p hp hno := by
    obtain rfl := Option.some.inj (hc.symm.trans hp)
    exact halert hno
  rejected_iff := by
    rw [h.rejected_iff, hc]
    refine or_congr Iff.rfl ⟨fun ha => ⟨hok, _, rfl, ha⟩, ?_⟩
    rintro ⟨-, p, hp, ha⟩
    obtain rfl := Option.some.inj hp
    exact ha
  ssl := h.ssl rfl

theorem sslServername_ruled (ngx : Int → Connection W → Hello W) (g : Guest) (ad : Int)
    (c : Connection W) : HelloRuled (ngx ad c) g (sslServername ngx g ad c) := by
  unfold sslServername
  generalize ngx ad c = nginx
  dsimp only
  by_cases hok : nginx.rc = .ok
  · rw [if_neg (by simp [hok])]
    cases hc : nginx.conn.configured .clientHello with
    | none =>
      refine ⟨⟨fun _ => ⟨hok, ?_⟩, fun _ => hok⟩, fun _ => rfl, ?_, ⟨.inl, ?_⟩, rfl⟩
      · rw [hc]
        nofun
      · rw [hc]
        nofun
      · rw [hc]
        rintro (h | ⟨-, p, hp, -⟩)
        · exact h
        · cases hp
    | some p =>
      obtain ⟨wcf, ready⟩ := p
      dsimp only
      rcases runHook_cases .clientHello g nginx.conn wcf ready with
        ⟨hrc, hno⟩ | ⟨hrc, hflag, hrejects⟩ | ⟨hrc, hflag, haccepts⟩
      · rw [if_pos hrc]
        exact .of_ruled hok hc (.failed hno nofun)
          fun _ => ⟨rfl, .inr ⟨rfl, fun alert h => hno h.1⟩⟩
      · rw [if_neg (by simp [hrc]), if_pos hflag]
        exact .of_ruled hok hc (.rejected hrejects nofun) fun _ => ⟨rfl, .inl hrejects⟩
      · rw [if_neg (by simp [hrc]), if_neg (by simp [hflag])]
        exact .of_ruled hok hc (.accepted haccepts rfl) fun hno => absurd rfl hno
  · rw [if_pos hok]
    exact ⟨⟨fun h => absurd h hok, fun h => absurd h.1 hok⟩, fun _ => rfl, fun h => absurd h hok,
      (or_iff_left fun h => hok h.1).symm, rfl⟩

theorem sslCertificate_ruled (g : Guest) (c : Connection W) :
    CertificateRuled c g (sslCertificate g c) := by
  unfold sslCertificate
  cases hc : c.configured .certificate with
  | none =>
    refine ⟨⟨nofun, ?_⟩, ⟨.inl, ?_⟩⟩
    · rw [hc]
      rintro ⟨p, hp, -⟩
      cases hp
    · rw [hc]
      rintro (h | ⟨p, hp, -⟩)
      · exact h
      · cases hp
  | some p =>
    obtain ⟨wcf, ready⟩ := p
    have hruled : ∀ {r : Bool × Connection W},
        Ruled .certificate g c wcf ready (r.1 = true) r.2 → CertificateRuled c g r := by
      intro r h
      constructor
      · rw [h.goesOn_iff, hc]
        refine ⟨fun ha => ⟨_, rfl, ha⟩, ?_⟩
        rintro ⟨p, hp, ha⟩
        obtain rfl := Option.some.inj hp
        exact ha
      · rw [h.rejected_iff, hc]
        refine or_congr Iff.rfl ⟨fun ha => ⟨_, rfl, ha⟩, ?_⟩
        rintro ⟨p, hp, ha⟩
        obtain rfl := Option.some.inj hp
        exact ha
    dsimp only
    rcases runHook_cases .certificate g c wcf ready with
      ⟨hrc, hno⟩ | ⟨hrc, hflag, hrejects⟩ | ⟨hrc, hflag, haccepts⟩
    · rw [if_pos hrc]
      exact hruled (.failed hno nofun)
    · rw [if_neg (by simp [hrc]), if_pos hflag]
      exact hruled (.rejected hrejects nofun)
    · rw [if_neg (by simp [hrc]), if_neg (by simp [hflag])]
      exact hruled (.accepted haccepts rfl)

/-- **A handshake fails closed.** Whatever a guest does and whatever fails around it, OpenSSL may go
on after the client hello exactly if nginx lets it and the guest, where a hook is configured,
returns 0 without having rejected; and after the certificate hook exactly if there is one and its
guest does. A client hello that the guest stops ends with the alert of its last rejection, or with an
internal error; where nginx refuses the hello itself, its own alert stands. Of the certificate callback
OpenSSL only learns that it failed, and picks the alert. -/
theorem handshake_fails_closed (ngx : Int → Connection W → Hello W) (g : Guest) (ad : Int)
    (c : Connection W) :
    HelloRuled (ngx ad c) g (sslServername ngx g ad c) ∧
      CertificateRuled c g (sslCertificate g c) :=
  ⟨sslServername_ruled ngx g ad c, sslCertificate_ruled g c⟩

/-! ## Installing the callbacks -/

/-- The server has the callbacks its configuration asks for, and no other. -/
structure Installed (answers : Installs) (s s' : SslServer) : Prop where
  wcf : s'.wcf = s.wcf
  ssl : s'.ssl.isSome = s.ssl.isSome
  clientHello : ∀ wcf ∈ s.wcf, ∀ ctx ∈ s.ssl, ∀ ctx' ∈ s'.ssl,
    ctx'.clientHello = (ctx.clientHello || decide ((wcf.phase .sslClientHello).set = 1))
  servername : ∀ wcf ∈ s.wcf, ∀ ctx ∈ s.ssl, ∀ ctx' ∈ s'.ssl,
    ctx'.servername =
      (ctx.servername || decide ((wcf.phase .sslClientHello).set = 1) && answers.servernameOk)
  cert : ∀ wcf ∈ s.wcf, ∀ ctx ∈ s.ssl, ∀ ctx' ∈ s'.ssl,
    ctx'.cert = (ctx.cert || decide ((wcf.phase .sslCertificate).set = 1))

theorem sslInitServer_installed {answers : Installs} {s s' : SslServer}
    (h : sslInitServer answers s = some s') : Installed answers s s' := by
  unfold sslInitServer at h
  rcases s with ⟨_ | wcf, _ | ctx⟩
  · obtain rfl := Option.some.inj h
    exact ⟨rfl, rfl, nofun, nofun, nofun⟩
  · obtain rfl := Option.some.inj h
    exact ⟨rfl, rfl, nofun, nofun, nofun⟩
  · obtain rfl := Option.some.inj h
    exact ⟨rfl, rfl, nofun, nofun, nofun⟩
  · dsimp only at h
    by_cases hhello : (wcf.phase .sslClientHello).set = 1
    · cases hanswer : answers.clientHelloOk with
      | false => simp [hhello, hanswer] at h
      | true =>
        by_cases hcert : (wcf.phase .sslCertificate).set = 1
        · simp only [hhello, hanswer, hcert, if_true, Bool.not_true, Bool.false_eq_true, if_false,
            Option.map_some, Option.some.injEq] at h
          subst h
          constructor <;> simp [hhello, hcert]
        · simp only [hhello, hanswer, hcert, if_true, Bool.not_true, Bool.false_eq_true, if_false,
            Option.map_some, Option.some.injEq] at h
          subst h
          constructor <;> simp [hhello, hcert]
    · by_cases hcert : (wcf.phase .sslCertificate).set = 1
      · simp only [hhello, hcert, if_true, if_false, Option.map_some, Option.some.injEq] at h
        subst h
        constructor <;> simp [hhello, hcert]
      · simp only [hhello, hcert, if_false, Option.map_some, Option.some.injEq] at h
        subst h
        constructor <;> simp [hhello, hcert]

/-- **The servers have the callbacks they ask for**, once `ssl_init` has gone through them all. -/
theorem sslInit_installed {l : List (Installs × SslServer)} {servers : List SslServer}
    (h : sslInit l = some servers) :
    List.Forall₂ (fun p s' => Installed p.1 p.2 s') l servers := by
  induction l generalizing servers with
  | nil =>
    obtain rfl := Option.some.inj h
    exact .nil
  | cons p l ih =>
    obtain ⟨s', hs', hrest⟩ := Option.bind_eq_some_iff.mp h
    obtain ⟨rest, hl, rfl⟩ := Option.map_eq_some_iff.mp hrest
    exact .cons (sslInitServer_installed hs') (ih hl)

end Ruled

end NgxWasm.Tls
