import CrabbyProxy.Proxy.Server

/-!
# The process

From the command line to the server, and from there to every address that is dialed.
-/

namespace CrabbyProxy

open CrabbyProxy.Stream CrabbyProxy.Proxy Execution
set_option autoImplicit false

structure Args where
  noCreds : Bool
  username : Option String
  password : Option String
  proxyPort : UInt32
  tlsCertificate : Option String
  tlsPrivateKey : Option String

/-- The rules on the arguments, which are checked before `main` sees them. -/
def Args.Valid (args : Args) : Prop :=
  (args.noCreds = false → args.username.isSome ∧ args.password.isSome) ∧
    (args.tlsPrivateKey.isSome → args.tlsCertificate.isSome)

instance (args : Args) : Decidable args.Valid := inferInstanceAs (Decidable (_ ∧ _))

inductive Startup where
  | usageError
  | panicked
  | started (state : AppState) (port : UInt16)

/-- TLS takes both files, or there is none. -/
def tlsAcceptor (createTlsAcceptor : String → String → Option TlsAcceptor) (args : Args) :
    Option (Option TlsAcceptor) :=
  match args.tlsCertificate, args.tlsPrivateKey with
  | some certPath, some keyPath => (createTlsAcceptor certPath keyPath).map some
  | _, _ => some none

/-- Everything in front of the accept loop. The address is parsed with a port of 16 bits. -/
def main (createTlsAcceptor : String → String → Option TlsAcceptor) (bind : UInt16 → Bool)
    (args : Args) : Startup :=
  if args.Valid then
    match tlsAcceptor createTlsAcceptor args with
    | none => .panicked
    | some acceptor =>
      if args.proxyPort.toNat < 65536 ∧ bind args.proxyPort.toUInt16 then
        .started ⟨!args.noCreds, args.username, args.password, acceptor⟩ args.proxyPort.toUInt16
      else .panicked
  else .usageError

variable {createTlsAcceptor : String → String → Option TlsAcceptor} {bind : UInt16 → Bool}
  {args : Args} {state : AppState} {port : UInt16}

theorem main_started (h : main createTlsAcceptor bind args = .started state port) :
    args.Valid ∧ state.requireCreds = !args.noCreds ∧ state.username = args.username ∧
      state.password = args.password := by
  unfold main at h
  split at h
  · rename_i hValid
    split at h
    · cases h
    · split at h
      · cases h
        exact ⟨hValid, rfl, rfl, rfl⟩
      · cases h
  · cases h

/-- A process that was not started with `--no-creds` dials an address only for a client that
has presented the username, and where its protocol has one the password, of the command line,
and only the address of the target that the client has asked for. Over SOCKS4 a user-id that
is not UTF-8 passes for the empty username. -/
theorem process_dials_for_logins {env : Environment} {events : List ServerEvent}
    {event : ServerEvent} {id : Nat} {address : String × UInt16}
    (hMain : main createTlsAcceptor bind args = .started state port)
    (hCreds : args.noCreds = false)
    (hDial : (event, some (id, address)) ∈
      history (Server.step env state) Server.start events) :
    ∃ before client after username password protocol start entry,
      events = before ++ .accepted client :: after ∧
      (run (Server.step env state) Server.start before).sessions.length = id ∧
      args.username = some username ∧ args.password = some password ∧
      state.password = some password ∧ Presents state client protocol start ∧
      Evidence env state username start entry protocol ∧
      admitClient env state client = .ok protocol entry ∧
      ∃ chosen target st st', chooseProtocol entry = .ok chosen st ∧
        parseTargetByProtocol chosen st = .ok target st' ∧
        address = (target.host, target.port) := by
  obtain ⟨⟨hLogin, _⟩, hRequire, hUsername, hPassword⟩ := main_started hMain
  rw [hCreds, Bool.not_false] at hRequire
  obtain ⟨before, client, after, protocol, entry, hEvents, hId, hAdmit, hParse⟩ :=
    Server.dials_admitted hDial
  obtain ⟨start, hPresents, hGranted⟩ := admitClient_ok hAdmit
  rw [if_pos hRequire] at hGranted
  obtain ⟨username, hSome, hEvidence⟩ := authenticateByProtocol_ok hRequire hGranted
  obtain ⟨password, hPass⟩ := Option.isSome_iff_exists.mp (hLogin hCreds).2
  exact ⟨before, client, after, username, password, protocol, start, entry, hEvents, hId,
    hUsername.symm.trans hSome, hPass, hPassword.trans hPass, hPresents, hEvidence,
    hAdmit, (SessionTask.parsed_parse entry).dials hParse⟩

/-- A SOCKS4 login for `alice`, and then the length-prefixed target `a:80`. -/
def loginClient : ClientStream :=
  plainClient [[4, 1, 0, 80, 1, 2, 3, 4, 97, 108, 105, 99, 101, 0, 0, 4, 97, 58, 56, 48]] .fresh

theorem process_dials_for_logins_socks4 : ∃ before client after username protocol start entry,
    [.accepted loginClient, .session 0 .proceed, .session 0 .proceed] =
      before ++ ServerEvent.accepted client :: after ∧
    some "alice" = some username ∧
    Presents ⟨true, some "alice", some "secret", none⟩ client protocol start ∧
    Evidence (quietWorld 0) ⟨true, some "alice", some "secret", none⟩ username start entry
      protocol ∧
    admitClient (quietWorld 0) ⟨true, some "alice", some "secret", none⟩ client =
      .ok protocol entry := by
  have hMain : main (fun _ _ => none) (fun _ => true)
      ⟨false, some "alice", some "secret", 8080, none, none⟩ =
        .started ⟨true, some "alice", some "secret", none⟩ 8080 := by
    rw [main, if_pos (by decide)]
    exact if_pos (by decide)
  have hDial : (ServerEvent.session 0 .proceed, some (0, "a", 80)) ∈
      history (Server.step (quietWorld 0) ⟨true, some "alice", some "secret", none⟩) Server.start
        [.accepted loginClient, .session 0 .proceed, .session 0 .proceed] :=
    mem_history_iff.mpr ⟨[.accepted loginClient, .session 0 .proceed], [], rfl,
      by decide +kernel⟩
  obtain ⟨before, client, after, username, _, protocol, start, entry, hEvents, _, hUsername, _, _,
    hPresents, hEvidence, hAdmit, _⟩ := process_dials_for_logins hMain rfl hDial
  exact ⟨before, client, after, username, protocol, start, entry, hEvents, hUsername, hPresents,
    hEvidence, hAdmit⟩

end CrabbyProxy
