import PushReceiver.Library.Handles
import PushReceiver.Library.Transition
import PushReceiver.Varint

set_option autoImplicit false

namespace PushReceiver

-- A call of OpenSSL or of the operating system with an object that is gone, or with a null SSL.
inductive Misuse where
  | socket
  | addrInfo
  | ssl
  | context
  | nullSsl
deriving DecidableEq, Repr

structure Host where
  sockets : Handles.Table
  addrInfos : Handles.Table
  ssls : Handles.Table
  contexts : Handles.Table
  -- The closed sockets that an SSL has been told to use, the last one first.
  closedUses : List Nat
deriving DecidableEq, Repr

def Host.fresh : Host := ⟨Handles.empty, Handles.empty, Handles.empty, Handles.empty, []⟩

structure Host.Released (host : Host) : Prop where
  sockets : host.sockets.references = []
  addrInfos : host.addrInfos.references = []
  ssls : host.ssls.references = []
  contexts : host.contexts.references = []

def Host.closeSocket (host : Host) (socket : Nat) : Except Misuse Host :=
  match host.sockets.release socket with
  | none => .error .socket
  | some sockets => .ok { host with sockets }

-- freeaddrinfo, which the source calls where the pointer is not null.
def Host.freeAddrInfo (host : Host) (addrInfo : Option Nat) : Except Misuse Host :=
  match addrInfo with
  | none => .ok host
  | some addrInfo =>
      match host.addrInfos.release addrInfo with
      | none => .error .addrInfo
      | some addrInfos => .ok { host with addrInfos }

def Host.sslCtxFree (host : Host) (context : Option Nat) : Except Misuse Host :=
  match context with
  | none => .ok host
  | some context =>
      match host.contexts.release context with
      | none => .error .context
      | some contexts => .ok { host with contexts }

-- What SSL_new has made, with the descriptor that SSL_set_fd has given it.
structure Ssl where
  handle : Nat
  context : Nat
  fd : Option Nat
deriving DecidableEq, Repr

-- An SSL has a reference to its context.
def Host.sslFree (host : Host) (ssl : Ssl) : Except Misuse Host :=
  match host.ssls.release ssl.handle with
  | none => .error .ssl
  | some ssls => { host with ssls }.sslCtxFree (some ssl.context)

-- SSL_has_pending and SSL_pending need their SSL only, and look at no socket.
def Host.sslUse (host : Host) (ssl : Option Ssl) : Except Misuse Unit :=
  match ssl with
  | none => .error .nullSsl
  | some ssl => if ssl.handle ∈ host.ssls.references then .ok () else .error .ssl

-- The descriptor of the SSL, where its socket is closed.
def Host.closedOf (host : Host) (ssl : Option Ssl) : List Nat :=
  (ssl.bind (·.fd)).toList.filter (· ∉ host.sockets.references)

-- SSL_write, SSL_read and SSL_shutdown go to the descriptor that the SSL was given. That the socket
-- has been closed they do not notice before the system does, which may have given its number to another.
def Host.sslTransfer (host : Host) (ssl : Option Ssl) : Except Misuse Host := do
  host.sslUse ssl
  .ok { host with closedUses := host.closedOf ssl ++ host.closedUses }

inductive SocketStatus where
  | connected
  | disconnected
deriving DecidableEq, Repr

structure TcpClient where
  status : SocketStatus
  connectSocket : Option Nat
  resultAddrInfo : Option Nat
deriving DecidableEq, Repr

-- getaddrinfo finds an address or fails, and then it may still have stored a list.
inductive Lookup where
  | found
  | fails (stored : Bool)
deriving DecidableEq, Repr

-- Whether the calls that Connect makes succeed, in its order.
structure Answers where
  shutdown : Bool
  getAddrInfo : Lookup
  socket : Bool
  setSockOpt : Bool
  connect : Bool
  sslCtxNew : Bool
  useCertificate : Bool
  loadLocations : Bool
  usePrivateKey : Bool
  sslNew : Bool
  sslConnect : Bool
deriving DecidableEq, Repr

-- After a failed shutdown the socket stays open.
def TcpClient.disconnect (shutdown : Bool) (tcp : TcpClient) (host : Host) : Except Misuse (Bool × TcpClient × Host) :=
  if tcp.status ≠ .connected then .ok (true, tcp, host)
  else
    match tcp.connectSocket with
    | none => .error .socket
    | some socket =>
        if socket ∉ host.sockets.references then .error .socket
        else if shutdown = false then .ok (false, { tcp with status := .disconnected }, host)
        else do
          let host ← host.closeSocket socket
          let host ← host.freeAddrInfo tcp.resultAddrInfo
          .ok (true, ⟨.disconnected, none, none⟩, host)

def TcpClient.storeAddrInfo (tcp : TcpClient) (host : Host) : TcpClient × Host :=
  ({ tcp with resultAddrInfo := some host.addrInfos.allocate.1 }, { host with addrInfos := host.addrInfos.allocate.2 })

-- What follows a successful getaddrinfo.
def TcpClient.connectSocketTo (answers : Answers) (tcp : TcpClient) (host : Host) :
    Except Misuse (Bool × TcpClient × Host) :=
  if answers.socket = false then do
    let host ← host.freeAddrInfo tcp.resultAddrInfo
    .ok (false, { tcp with connectSocket := none, resultAddrInfo := none }, host)
  else
    let socket := host.sockets.allocate.1
    let host := { host with sockets := host.sockets.allocate.2 }
    if answers.setSockOpt = false then do
      let host ← host.closeSocket socket
      let host ← host.freeAddrInfo tcp.resultAddrInfo
      .ok (false, { tcp with connectSocket := some socket, resultAddrInfo := none }, host)
    else do
      let host ← host.freeAddrInfo tcp.resultAddrInfo
      if answers.connect then .ok (true, ⟨.connected, some socket, none⟩, host)
      else .ok (false, { tcp with connectSocket := some socket, resultAddrInfo := none }, host)

def TcpClient.connect (answers : Answers) (tcp : TcpClient) (host : Host) : Except Misuse (Bool × TcpClient × Host) := do
  let (_, tcp, host) ← tcp.disconnect answers.shutdown host
  match answers.getAddrInfo with
  | .found =>
      let (tcp, host) := tcp.storeAddrInfo host
      tcp.connectSocketTo answers host
  | .fails stored =>
      let (tcp, host) := if stored then tcp.storeAddrInfo host else (tcp, host)
      let host ← host.freeAddrInfo tcp.resultAddrInfo
      .ok (false, { tcp with resultAddrInfo := none }, host)

structure SslSocket where
  sockFd : Option Nat
  ssl : Option Ssl
  context : Option Nat
deriving DecidableEq, Repr

structure SslClient where
  tcp : TcpClient
  socket : SslSocket
  certFile : Bytes
  caFile : Bytes
  keyFile : Bytes
deriving DecidableEq, Repr

def SslClient.fresh : SslClient := ⟨⟨.disconnected, none, none⟩, ⟨none, none, none⟩, [], [], []⟩

def setUpCtxClient (sslCtxNew : Bool) (socket : SslSocket) (host : Host) : SslSocket × Host :=
  if sslCtxNew then
    ({ socket with context := some host.contexts.allocate.1 }, { host with contexts := host.contexts.allocate.2 })
  else ({ socket with context := none }, host)

-- The files that Connect loads into a new context.
def SslClient.loads (answers : Answers) (client : SslClient) : Bool :=
  (client.certFile.isEmpty || answers.useCertificate) && (client.caFile.isEmpty || answers.loadLocations) &&
    (client.keyFile.isEmpty || answers.usePrivateKey)

-- SSL_set_fd is called with what SSL_new gave.
def startSsl (answers : Answers) (context : Nat) (socket : SslSocket) (host : Host) : Except Misuse (Bool × SslSocket × Host) :=
  if answers.sslNew = false then .error .nullSsl
  else
    match host.contexts.share context with
    | none => .error .context
    | some contexts =>
        .ok (answers.sslConnect, { socket with ssl := some ⟨host.ssls.allocate.1, context, socket.sockFd⟩ },
          { host with ssls := host.ssls.allocate.2, contexts })

-- What follows the TCP connection. A failure leaves the pointers as they are.
def SslClient.startSession (answers : Answers) (client : SslClient) (host : Host) : Except Misuse (Bool × SslClient × Host) :=
  let (socket, host) := setUpCtxClient answers.sslCtxNew { client.socket with sockFd := client.tcp.connectSocket } host
  match socket.context with
  | none => .ok (false, { client with socket }, host)
  | some context =>
      if client.loads answers = false then .ok (false, { client with socket }, host)
      else do
        let (shaken, socket, host) ← startSsl answers context socket host
        .ok (shaken, { client with socket }, host)

-- The status is CONNECTED as soon as there is a TCP connection.
def SslClient.connect (answers : Answers) (client : SslClient) (host : Host) : Except Misuse (Bool × SslClient × Host) := do
  let (reached, tcp, host) ← client.tcp.connect answers host
  if reached = false then .ok (false, { client with tcp }, host) else ({ client with tcp } : SslClient).startSession answers host

-- The context is released and its pointer kept.
def shutdownSsl (socket : SslSocket) (host : Host) : Except Misuse (SslSocket × Host) :=
  match socket.ssl with
  | none => .ok (socket, host)
  | some ssl => do
      let host ← host.sslTransfer (some ssl)
      let host ← host.sslFree ssl
      let host ← host.sslCtxFree socket.context
      .ok ({ socket with ssl := none }, host)

def SslClient.disconnect (shutdown : Bool) (client : SslClient) (host : Host) : Except Misuse (Bool × SslClient × Host) :=
  if client.tcp.status ≠ .connected then .ok (true, client, host)
  else do
    let (socket, host) ← shutdownSsl client.socket host
    let (done, tcp, host) ← client.tcp.disconnect shutdown host
    .ok (done, { client with tcp, socket }, host)

-- The destructor of the class and that of its CTCPClient.
def SslClient.destroy (shutdown : Bool) (client : SslClient) (host : Host) : Except Misuse Host :=
  if client.tcp.status ≠ .connected then .ok host
  else do
    let (_, client, host) ← client.disconnect shutdown host
    let (_, tcp, host) ← client.tcp.disconnect shutdown host
    let (_, _, host) ← tcp.disconnect shutdown host
    .ok host

-- Send and Receive look at the status, HasPending and PendingBytes do not.
inductive SslCall where
  | connect (answers : Answers)
  | disconnect (shutdown : Bool)
  | send
  | receive
  | hasPending
  | pendingBytes
  | setSslCertFile (path : Bytes)
  | setSslCerthAuth (path : Bytes)
  | setSslKeyFile (path : Bytes)
deriving DecidableEq, Repr

def SslClient.transfer (client : SslClient) (host : Host) : Except Misuse (SslClient × Host) :=
  if client.tcp.status ≠ .connected then .ok (client, host)
  else do
    let host ← host.sslTransfer client.socket.ssl
    .ok (client, host)

def SslClient.pending (client : SslClient) (host : Host) : Except Misuse (SslClient × Host) := do
  host.sslUse client.socket.ssl
  .ok (client, host)

def SslCall.run (call : SslCall) (client : SslClient) (host : Host) : Except Misuse (SslClient × Host) :=
  match call with
  | .connect answers => do
      let (_, client, host) ← client.connect answers host
      .ok (client, host)
  | .disconnect shutdown => do
      let (_, client, host) ← client.disconnect shutdown host
      .ok (client, host)
  | .send | .receive => client.transfer host
  | .hasPending | .pendingBytes => client.pending host
  | .setSslCertFile path => .ok ({ client with certFile := path }, host)
  | .setSslCerthAuth path => .ok ({ client with caFile := path }, host)
  | .setSslKeyFile path => .ok ({ client with keyFile := path }, host)

-- Any calls in any order, with any answers, on a client that has been constructed.
def sslClient : Transition.System (SslClient × Host) SslCall where
  initial := fun state => state = (SslClient.fresh, Host.fresh)
  step := fun state call next => call.run state.1 state.2 = .ok next

def Answers.reaches (answers : Answers) : Bool :=
  answers.getAddrInfo = .found && answers.socket && answers.setSockOpt && answers.connect

-- The socket is closed whenever it is replaced or given up.
structure TcpTidy (answers : Answers) (tcp : TcpClient) : Prop where
  closed : tcp.status = .connected → answers.shutdown = true
  used : answers.getAddrInfo = .found → answers.socket = true → answers.setSockOpt = true → answers.connect = true

-- A null SSL is passed on.
def SslCall.PassesNull (call : SslCall) (client : SslClient) : Prop :=
  match call with
  | .connect answers => answers.reaches ∧ answers.sslCtxNew ∧ client.loads answers ∧ answers.sslNew = false
  | .send | .receive => client.tcp.status = .connected ∧ client.socket.ssl = none
  | .hasPending | .pendingBytes => client.socket.ssl = none
  | _ => False

-- The call gives up nothing that it or an earlier call has made.
def SslCall.Tidy (call : SslCall) (client : SslClient) : Prop :=
  match call with
  | .connect answers => client.socket.ssl = none ∧ TcpTidy answers client.tcp ∧
      (answers.reaches → answers.sslCtxNew → client.loads answers)
  | .disconnect shutdown => client.tcp.status = .connected → shutdown = true
  | _ => True

-- The socket that a Disconnect with this answer closes.
def TcpClient.closes (shutdown : Bool) (tcp : TcpClient) : List Nat :=
  match tcp.status, shutdown with
  | .connected, true => tcp.connectSocket.toList
  | _, _ => []

-- The call goes through its SSL to a socket.
def SslCall.transfers (call : SslCall) (client : SslClient) : Bool :=
  match call, client.tcp.status with
  | .send, .connected | .receive, .connected | .disconnect _, .connected => true
  | _, _ => false

-- Connect closes the socket of the connection before it makes another, and Disconnect gives up the SSL as well.
def SslCall.replaces (call : SslCall) (client : SslClient) : List Nat :=
  match call with
  | .connect answers => client.tcp.closes answers.shutdown
  | _ => []

-- The call closes the socket of this SSL and leaves the SSL in place.
def SslCall.Strands (call : SslCall) (client : SslClient) (ssl : Ssl) : Prop :=
  client.socket.ssl = some ssl ∧ ∃ fd ∈ call.replaces client, ssl.fd = some fd

def TcpClient.held (tcp : TcpClient) : List Nat :=
  match tcp.status with
  | .connected => tcp.connectSocket.toList
  | .disconnected => []

structure TcpOwns (tcp : TcpClient) (host : Host) (lost : List Nat) : Prop where
  sockets : host.sockets.Holds (tcp.held ++ lost)
  present : tcp.status = .connected → tcp.connectSocket ≠ none
  addrInfos : host.addrInfos.Holds []
  unset : tcp.resultAddrInfo = none

structure TcpKept (closed : List Nat) (host next : Host) : Prop where
  ssls : next.ssls = host.ssls
  contexts : next.contexts = host.contexts
  closedUses : next.closedUses = host.closedUses
  sockets : host.sockets.Distinct → host.sockets.Follows closed next.sockets

theorem tcp_kept_trans (closed more : List Nat) (host between next : Host) (before : TcpKept closed host between)
    (after : TcpKept more between next) : TcpKept (closed ++ more) host next := by
  refine ⟨after.ssls.trans before.ssls, after.contexts.trans before.contexts, after.closedUses.trans before.closedUses, ?_⟩
  intro distinct
  have follows := before.sockets distinct
  exact Handles.follows_trans _ _ _ _ _ follows (after.sockets follows.distinct)

theorem tcp_disconnected (shutdown : Bool) (tcp : TcpClient) (host : Host) (lost : List Nat) (owns : TcpOwns tcp host lost) :
    ∃ done after next gone, tcp.disconnect shutdown host = .ok (done, after, next) ∧ after.status = .disconnected ∧
      TcpOwns after next (gone ++ lost) ∧ TcpKept (tcp.closes shutdown) host next ∧
      (gone = [] ↔ (tcp.status = .connected → shutdown = true)) := by
  obtain ⟨status, connectSocket, resultAddrInfo⟩ := tcp
  obtain ⟨sockets, present, addrInfos, unset⟩ := owns
  obtain rfl : resultAddrInfo = none := unset
  cases status with
  | disconnected =>
      exact ⟨true, _, host, [], rfl, rfl, ⟨sockets, present, addrInfos, rfl⟩, ⟨rfl, rfl, rfl, Handles.follows_same _⟩, by simp⟩
  | connected =>
      obtain ⟨socket, rfl⟩ := Option.ne_none_iff_exists'.mp (present rfl)
      have live : ¬ socket ∉ host.sockets.references := not_not.mpr (Handles.holds_live _ _ socket sockets)
      cases shutdown with
      | false =>
          refine ⟨false, ⟨.disconnected, some socket, none⟩, host, [socket], ?_, rfl, ?_,
            ⟨rfl, rfl, rfl, Handles.follows_same _⟩, by simp⟩
          · simp only [TcpClient.disconnect]
            rw [if_neg (by simp), if_neg live]
            rfl
          · exact ⟨sockets, (fun impossible => by cases impossible), addrInfos, rfl⟩
      | true =>
          obtain ⟨released, release, holds⟩ := Handles.release_holds _ _ socket sockets
          refine ⟨true, ⟨.disconnected, none, none⟩, { host with sockets := released }, [], ?_, rfl, ?_,
            ⟨rfl, rfl, rfl, fun distinct => Handles.release_follows _ _ socket distinct release⟩, by simp⟩
          · simp only [TcpClient.disconnect]
            rw [if_neg (by simp), if_neg live, if_neg (by simp), Host.closeSocket, release]
            rfl
          · exact ⟨holds, (fun impossible => by cases impossible), addrInfos, rfl⟩

-- The socket that a failed connect leaves open is the only loss.
theorem socket_connected (answers : Answers) (tcp : TcpClient) (host : Host) (lost : List Nat)
    (disconnected : tcp.status = .disconnected) (owns : TcpOwns tcp host lost) :
    ∃ after next gone, (tcp.storeAddrInfo host).1.connectSocketTo answers (tcp.storeAddrInfo host).2 =
        .ok (answers.socket && answers.setSockOpt && answers.connect, after, next) ∧
      (after.status = .connected ↔ (answers.socket && answers.setSockOpt && answers.connect) = true) ∧
      TcpOwns after next (gone ++ lost) ∧ TcpKept [] host next ∧
      (gone = [] ↔ (answers.socket = true → answers.setSockOpt = true → answers.connect = true)) := by
  obtain ⟨status, connectSocket, resultAddrInfo⟩ := tcp
  obtain ⟨sockets, present, addrInfos, unset⟩ := owns
  obtain rfl : status = .disconnected := disconnected
  have unheld : host.sockets.Holds lost := sockets
  obtain ⟨freed, free, empty⟩ := Handles.release_holds _ _ _ (Handles.allocate_holds _ _ addrInfos).1
  obtain ⟨opened, _⟩ := Handles.allocate_holds _ _ unheld
  obtain ⟨closed, close, holds⟩ := Handles.release_holds _ _ _ opened
  have created := Handles.allocate_follows host.sockets
  have closes : host.sockets.Distinct → host.sockets.Follows [] closed := by
    intro distinct
    have follows := Handles.follows_trans _ _ _ _ _ (created distinct)
      (Handles.release_follows _ _ _ (created distinct).distinct close)
    refine Handles.follows_issued _ _ _ [] follows fun handle issued => ?_
    have older : handle ≠ host.sockets.next := Nat.ne_of_lt issued
    simp [Handles.Table.allocate, older]
  cases socket : answers.socket with
  | false =>
      refine ⟨⟨.disconnected, none, none⟩, { host with addrInfos := freed }, [], ?_, by simp,
        ⟨unheld, (fun impossible => by cases impossible), empty, rfl⟩, ⟨rfl, rfl, rfl, Handles.follows_same _⟩, by simp⟩
      simp [TcpClient.connectSocketTo, TcpClient.storeAddrInfo, Host.freeAddrInfo, socket, free, bind, Except.bind]
  | true =>
      cases setSockOpt : answers.setSockOpt with
      | false =>
          refine ⟨⟨.disconnected, some host.sockets.allocate.1, none⟩, { host with sockets := closed, addrInfos := freed }, [],
            ?_, by simp, ⟨holds, (fun impossible => by cases impossible), empty, rfl⟩, ⟨rfl, rfl, rfl, closes⟩, by simp⟩
          simp [TcpClient.connectSocketTo, TcpClient.storeAddrInfo, Host.freeAddrInfo, Host.closeSocket, socket, setSockOpt, free,
            close, bind, Except.bind]
      | true =>
          cases connect : answers.connect with
          | false =>
              refine ⟨⟨.disconnected, some host.sockets.allocate.1, none⟩,
                { host with sockets := host.sockets.allocate.2, addrInfos := freed }, [host.sockets.allocate.1], ?_, by simp,
                ⟨opened, (fun impossible => by cases impossible), empty, rfl⟩, ⟨rfl, rfl, rfl, created⟩, by simp⟩
              simp [TcpClient.connectSocketTo, TcpClient.storeAddrInfo, Host.freeAddrInfo, socket, setSockOpt, connect, free,
                bind, Except.bind]
          | true =>
              refine ⟨⟨.connected, some host.sockets.allocate.1, none⟩,
                { host with sockets := host.sockets.allocate.2, addrInfos := freed }, [], ?_, by simp,
                ⟨opened, fun _ => Option.some_ne_none _, empty, rfl⟩, ⟨rfl, rfl, rfl, created⟩, by simp⟩
              simp [TcpClient.connectSocketTo, TcpClient.storeAddrInfo, Host.freeAddrInfo, socket, setSockOpt, connect, free,
                bind, Except.bind]

theorem tcp_connected (answers : Answers) (tcp : TcpClient) (host : Host) (lost : List Nat) (owns : TcpOwns tcp host lost) :
    ∃ after next gone, tcp.connect answers host = .ok (answers.reaches, after, next) ∧
      (after.status = .connected ↔ answers.reaches = true) ∧ TcpOwns after next (gone ++ lost) ∧
      TcpKept (tcp.closes answers.shutdown) host next ∧ (gone = [] ↔ TcpTidy answers tcp) := by
  obtain ⟨done, between, middle, gone, closed, disconnected, owned, same, all⟩ :=
    tcp_disconnected answers.shutdown tcp host lost owns
  cases lookup : answers.getAddrInfo with
  | found =>
      obtain ⟨after, next, more, opened, status, holds, kept, rest⟩ := socket_connected answers between middle _ disconnected owned
      have reaches : answers.reaches = (answers.socket && answers.setSockOpt && answers.connect) := by
        simp [Answers.reaches, lookup, Bool.and_assoc]
      refine ⟨after, next, more ++ gone, ?_, ?_, ?_, ?_, ?_⟩
      · simp only [TcpClient.connect, closed, lookup, bind, Except.bind, reaches]
        exact opened
      · rw [reaches]
        exact status
      · rw [List.append_assoc]
        exact holds
      · have all := tcp_kept_trans _ _ _ _ _ same kept
        rwa [List.append_nil] at all
      · rw [List.append_eq_nil_iff, rest, all]
        exact ⟨fun both => ⟨both.2, fun _ => both.1⟩, fun tidy => ⟨tidy.used lookup, tidy.closed⟩⟩
  | fails stored =>
      have unreached : answers.reaches = false := by simp [Answers.reaches, lookup]
      have tidy : TcpTidy answers tcp ↔ (tcp.status = .connected → answers.shutdown = true) :=
        ⟨fun tidy => tidy.closed, fun kept => ⟨kept, fun found => by rw [lookup] at found; cases found⟩⟩
      obtain ⟨freed, free, empty⟩ := Handles.release_holds _ _ _ (Handles.allocate_holds _ _ owned.addrInfos).1
      have kept : TcpOwns { between with resultAddrInfo := none } middle (gone ++ lost) :=
        ⟨owned.sockets, owned.present, owned.addrInfos, rfl⟩
      cases stored with
      | false =>
          refine ⟨{ between with resultAddrInfo := none }, middle, gone, ?_, by simp [disconnected, unreached], kept, same, ?_⟩
          · simp [TcpClient.connect, closed, lookup, bind, Except.bind, unreached, Host.freeAddrInfo, owned.unset]
          · rw [all, tidy]
      | true =>
          refine ⟨{ between with resultAddrInfo := none }, { middle with addrInfos := freed }, gone, ?_,
            by simp [disconnected, unreached], ⟨kept.sockets, kept.present, empty, rfl⟩,
            ⟨same.ssls, same.contexts, same.closedUses, same.sockets⟩, ?_⟩
          · simp [TcpClient.connect, TcpClient.storeAddrInfo, closed, lookup, bind, Except.bind, unreached, Host.freeAddrInfo, free]
          · rw [all, tidy]

structure Lost where
  sockets : List Nat
  ssls : List Nat
  contexts : List Nat

def Lost.append (lost more : Lost) : Lost :=
  ⟨more.sockets ++ lost.sockets, more.ssls ++ lost.ssls, more.contexts ++ lost.contexts⟩

def nothingLost : Lost := ⟨[], [], []⟩

theorem lost_append (lost more last : Lost) : lost.append (more.append last) = (lost.append more).append last := by
  simp [Lost.append]

theorem lost_nothing (lost more : Lost) : lost.append more = nothingLost ↔ lost = nothingLost ∧ more = nothingLost := by
  obtain ⟨sockets, ssls, contexts⟩ := lost
  obtain ⟨others, otherSsls, otherContexts⟩ := more
  simp only [Lost.append, nothingLost, Lost.mk.injEq, List.append_eq_nil_iff]
  tauto

-- The context that the client will release: its pointer counts as long as there is an SSL to shut down.
def SslClient.keptContext (client : SslClient) : List Nat :=
  if client.socket.ssl ≠ none ∧ client.tcp.status = .connected then client.socket.context.toList else []

-- What the client still refers to, and what it has given up without releasing it.
structure Owns (client : SslClient) (host : Host) (lost : Lost) : Prop where
  tcp : TcpOwns client.tcp host lost.sockets
  ssls : host.ssls.Holds (client.socket.ssl.toList.map (·.handle) ++ lost.ssls)
  contexts : host.contexts.Holds (client.socket.ssl.toList.map (·.context) ++ (client.keptContext ++ lost.contexts))

-- The SSL is that of the connection.
structure Session (client : SslClient) : Prop where
  connected : client.socket.ssl ≠ none → client.tcp.status = .connected
  context : client.socket.ssl ≠ none → client.socket.context ≠ none
  current : ∀ ssl, client.socket.ssl = some ssl → ssl.fd = client.tcp.connectSocket

theorem ssl_shut_down (client : SslClient) (host : Host) (lost : Lost) (connected : client.tcp.status = .connected)
    (owns : Owns client host lost) :
    ∃ ssls contexts, shutdownSsl client.socket host =
        .ok ({ client.socket with ssl := none },
          { host with ssls, contexts, closedUses := host.closedOf client.socket.ssl ++ host.closedUses }) ∧
      ssls.next = host.ssls.next ∧ ssls.Holds lost.ssls ∧ contexts.Holds lost.contexts := by
  obtain ⟨tcp, ⟨sockFd, ssl, context⟩, certFile, caFile, keyFile⟩ := client
  obtain ⟨_, ssls, contexts⟩ := owns
  cases ssl with
  | none => exact ⟨host.ssls, host.contexts, rfl, rfl, ssls, contexts⟩
  | some ssl =>
      have kept : SslClient.keptContext ⟨tcp, ⟨sockFd, some ssl, context⟩, certFile, caFile, keyFile⟩ = context.toList :=
        if_pos ⟨Option.some_ne_none ssl, connected⟩
      rw [kept] at contexts
      have live : ssl.handle ∈ host.ssls.references := Handles.holds_live _ _ _ ssls
      obtain ⟨freed, free, holds⟩ := Handles.release_holds _ _ _ ssls
      have issued := Handles.release_next _ _ _ free
      obtain ⟨left, leave, rest⟩ := Handles.release_holds _ _ _ contexts
      cases context with
      | none =>
          refine ⟨freed, left, ?_, issued, holds, rest⟩
          simp [shutdownSsl, Host.sslTransfer, Host.sslUse, Host.sslFree, Host.sslCtxFree, live, free, leave, bind, Except.bind]
      | some context =>
          obtain ⟨last, release, none⟩ := Handles.release_holds _ _ _ rest
          refine ⟨freed, last, ?_, issued, holds, none⟩
          simp [shutdownSsl, Host.sslTransfer, Host.sslUse, Host.sslFree, Host.sslCtxFree, live, free, leave, release, bind, Except.bind]

-- What a call does to the SSL of the client and to its socket.
structure SslMoved (call : SslCall) (client : SslClient) (host : Host) (after : SslClient) (next : Host) : Prop where
  uses : next.closedUses = (if call.transfers client then host.closedOf client.socket.ssl else []) ++ host.closedUses
  issued : host.ssls.next ≤ next.ssls.next
  distinct : host.sockets.Distinct → next.sockets.Distinct
  ssl : host.sockets.Distinct → ∀ ssl, after.socket.ssl = some ssl →
    (client.socket.ssl = some ssl ∧ host.sockets.Follows (call.replaces client) next.sockets) ∨
      (host.ssls.next ≤ ssl.handle ∧ ∃ fd, ssl.fd = some fd ∧ fd ∈ next.sockets.references)

theorem unmoved (call : SslCall) (client after : SslClient) (host : Host) (same : after.socket = client.socket)
    (transfers : call.transfers client = false) (replaces : call.replaces client = []) :
    SslMoved call client host after host := by
  refine ⟨by simp [transfers], Nat.le_refl _, id, fun distinct ssl some_ => .inl ⟨same ▸ some_, ?_⟩⟩
  rw [replaces]
  exact Handles.follows_same _ distinct

theorem ssl_disconnected (shutdown : Bool) (client : SslClient) (host : Host) (lost : Lost) (owns : Owns client host lost) :
    ∃ done after next gone, client.disconnect shutdown host = .ok (done, after, next) ∧ after.tcp.status = .disconnected ∧
      Owns after next (lost.append gone) ∧ (gone = nothingLost ↔ (client.tcp.status = .connected → shutdown = true)) ∧
      (Session client → after.socket.ssl = none) ∧ SslMoved (.disconnect shutdown) client host after next := by
  cases status : client.tcp.status with
  | disconnected =>
      refine ⟨true, client, host, nothingLost, if_pos (by simp [status]), status, owns, by simp, fun session => ?_,
        unmoved _ client client host rfl (by simp [SslCall.transfers, status]) rfl⟩
      by_contra present
      rw [session.connected present] at status
      cases status
  | connected =>
      obtain ⟨ssls, contexts, shut, issued, sslsLeft, contextsLeft⟩ := ssl_shut_down client host lost status owns
      have tcpOwns : TcpOwns client.tcp
          { host with ssls, contexts, closedUses := host.closedOf client.socket.ssl ++ host.closedUses } lost.sockets :=
        ⟨owns.tcp.sockets, owns.tcp.present, owns.tcp.addrInfos, owns.tcp.unset⟩
      obtain ⟨done, after, next, gone, closed, disconnected, owned, same, all⟩ :=
        tcp_disconnected shutdown client.tcp _ lost.sockets tcpOwns
      refine ⟨done, { client with tcp := after, socket := { client.socket with ssl := none } }, next, ⟨gone, [], []⟩, ?_,
        disconnected, ⟨owned, ?_, ?_⟩, ?_, fun _ => rfl, ?_, ?_, fun distinct => (same.sockets distinct).distinct,
        fun _ ssl none => by cases none⟩
      · rw [SslClient.disconnect, if_neg (by simp [status])]
        simp only [shut, closed, bind, Except.bind]
      · rw [same.ssls]
        exact sslsLeft
      · rw [same.contexts]
        exact contextsLeft
      · rw [status] at all
        rw [← all]
        simp [nothingLost]
      · have transfers : (SslCall.disconnect shutdown).transfers client = true := by simp [SslCall.transfers, status]
        rw [same.closedUses, if_pos transfers]
      · rw [same.ssls]
        exact issued.ge

structure Started (answers : Answers) (client : SslClient) (host : Host) (lost : Lost) (after : SslClient) (next : Host)
    (gone : Lost) : Prop where
  owns : Owns after next (lost.append gone)
  sockets : next.sockets = host.sockets
  closedUses : next.closedUses = host.closedUses
  issued : host.ssls.next ≤ next.ssls.next
  ssl : ∀ ssl, after.socket.ssl = some ssl →
    client.socket.ssl = some ssl ∨ (ssl.handle = host.ssls.next ∧ ssl.fd = client.tcp.connectSocket)
  clean : client.socket.ssl = none →
    (gone = nothingLost ↔ (answers.sslCtxNew = true → client.loads answers = true)) ∧ Session after

theorem kept_one (tcp : TcpClient) (sockFd context : Option Nat) (ssl : Ssl) (certFile caFile keyFile : Bytes)
    (connected : tcp.status = .connected) :
    SslClient.keptContext ⟨tcp, ⟨sockFd, some ssl, context⟩, certFile, caFile, keyFile⟩ = context.toList :=
  if_pos ⟨Option.some_ne_none ssl, connected⟩

-- `lost` has the context that the pointer is about to leave.
theorem session_started (answers : Answers) (client : SslClient) (host : Host) (lost : Lost)
    (connected : client.tcp.status = .connected) (tcpOwns : TcpOwns client.tcp host lost.sockets)
    (ssls : host.ssls.Holds (client.socket.ssl.toList.map (·.handle) ++ lost.ssls))
    (contexts : host.contexts.Holds (client.socket.ssl.toList.map (·.context) ++ lost.contexts)) :
    (answers.sslCtxNew = true ∧ client.loads answers = true ∧ answers.sslNew = false →
        client.startSession answers host = .error .nullSsl) ∧
      (¬ (answers.sslCtxNew = true ∧ client.loads answers = true ∧ answers.sslNew = false) →
        ∃ done after next gone, client.startSession answers host = .ok (done, after, next) ∧
          Started answers client host lost after next gone) := by
  obtain ⟨tcp, ⟨sockFd, ssl, context⟩, certFile, caFile, keyFile⟩ := client
  obtain ⟨made, _⟩ := Handles.allocate_holds _ _ contexts
  have sockets : ∀ ssls contexts, TcpOwns tcp { host with ssls, contexts } lost.sockets := fun _ _ =>
    ⟨tcpOwns.sockets, tcpOwns.present, tcpOwns.addrInfos, tcpOwns.unset⟩
  have none_session : ∀ context, Session ⟨tcp, ⟨tcp.connectSocket, none, context⟩, certFile, caFile, keyFile⟩ := fun _ =>
    ⟨fun present => absurd rfl present, fun present => absurd rfl present, fun _ none => by cases none⟩
  cases sslCtxNew : answers.sslCtxNew with
  | false =>
      refine ⟨by simp, fun _ => ⟨false, ⟨tcp, ⟨tcp.connectSocket, ssl, none⟩, certFile, caFile, keyFile⟩, host, nothingLost, ?_,
        ⟨⟨tcpOwns, ssls, ?_⟩, rfl, rfl, Nat.le_refl _, fun _ => .inl, ?_⟩⟩⟩
      · simp [SslClient.startSession, setUpCtxClient, sslCtxNew]
      · cases ssl with
        | none => exact contexts
        | some ssl => exact (kept_one tcp tcp.connectSocket none ssl certFile caFile keyFile connected).symm ▸ contexts
      · rintro rfl
        exact ⟨by simp [sslCtxNew], none_session none⟩
  | true =>
      cases loads : SslClient.loads answers ⟨tcp, ⟨sockFd, ssl, context⟩, certFile, caFile, keyFile⟩ with
      | false =>
          refine ⟨by simp, fun _ => ?_⟩
          cases ssl with
          | none =>
              refine ⟨false, ⟨tcp, ⟨tcp.connectSocket, none, some host.contexts.allocate.1⟩, certFile, caFile, keyFile⟩,
                { host with contexts := host.contexts.allocate.2 }, ⟨[], [], [host.contexts.allocate.1]⟩, ?_,
                ⟨⟨sockets _ _, ssls, made⟩, rfl, rfl, Nat.le_refl _, fun _ => .inl, fun _ => ⟨?_, none_session _⟩⟩⟩
              · simp [SslClient.startSession, setUpCtxClient, sslCtxNew, loads]
              · simp [nothingLost, sslCtxNew, loads]
          | some ssl =>
              refine ⟨false, ⟨tcp, ⟨tcp.connectSocket, some ssl, some host.contexts.allocate.1⟩, certFile, caFile, keyFile⟩,
                { host with contexts := host.contexts.allocate.2 }, nothingLost, ?_,
                ⟨⟨sockets _ _, ssls, ?_⟩, rfl, rfl, Nat.le_refl _, fun _ => .inl, fun none => by cases none⟩⟩
              · simp [SslClient.startSession, setUpCtxClient, sslCtxNew, loads]
              · rw [kept_one _ _ _ _ _ _ _ connected]
                exact Handles.holds_perm _ _ _ made (.swap _ _ _)
      | true =>
          obtain ⟨shared, share, holds⟩ := Handles.share_holds _ _ _ made
          cases sslNew : answers.sslNew with
          | false =>
              refine ⟨fun _ => ?_, by simp⟩
              simp [SslClient.startSession, setUpCtxClient, startSsl, sslCtxNew, loads, sslNew, bind, Except.bind]
          | true =>
              refine ⟨by simp, fun _ => ⟨answers.sslConnect,
                ⟨tcp, ⟨tcp.connectSocket, some ⟨host.ssls.allocate.1, host.contexts.allocate.1, tcp.connectSocket⟩,
                  some host.contexts.allocate.1⟩, certFile, caFile, keyFile⟩,
                { host with ssls := host.ssls.allocate.2, contexts := shared },
                ⟨[], ssl.toList.map (·.handle), ssl.toList.map (·.context)⟩, ?_,
                ⟨⟨sockets _ _, ?_, ?_⟩, rfl, rfl, Nat.le_succ _, ?_, ?_⟩⟩⟩
              · simp [SslClient.startSession, setUpCtxClient, startSsl, sslCtxNew, loads, sslNew, share, bind, Except.bind]
              · exact (Handles.allocate_holds _ _ ssls).1
              · rw [kept_one _ _ _ _ _ _ _ connected]
                exact holds
              · intro ssl same
                rw [← Option.some.inj same]
                exact .inr ⟨rfl, rfl⟩
              · rintro rfl
                refine ⟨by simp [nothingLost, loads], fun _ => connected, fun _ => Option.some_ne_none _, ?_⟩
                intro ssl same
                rw [← Option.some.inj same]

-- What a call does to the accounts. From a proper session it loses something exactly when it is not tidy.
structure Accounted (call : SslCall) (client : SslClient) (host : Host) (lost : Lost) (after : SslClient) (next : Host)
    (gone : Lost) : Prop where
  moved : SslMoved call client host after next
  owns : Owns after next (lost.append gone)
  tidy : Session client → call.Tidy client → gone = nothingLost ∧ Session after
  untidy : Session client → ¬ call.Tidy client → gone ≠ nothingLost

theorem session_kept (client : SslClient) (session : Session client) : client.keptContext = [] ↔ client.socket.ssl = none := by
  by_cases absent : client.socket.ssl = none
  · exact iff_of_true (if_neg fun both => both.1 absent) absent
  · obtain ⟨context, present⟩ := Option.ne_none_iff_exists'.mp (session.context absent)
    refine iff_of_false ?_ absent
    rw [SslClient.keptContext, if_pos ⟨absent, session.connected absent⟩, present]
    exact List.cons_ne_nil _ _

theorem ssl_connected (answers : Answers) (client : SslClient) (host : Host) (lost : Lost) (owns : Owns client host lost) :
    ((SslCall.connect answers).PassesNull client → client.connect answers host = .error .nullSsl) ∧
      (¬ (SslCall.connect answers).PassesNull client →
        ∃ done after next gone, client.connect answers host = .ok (done, after, next) ∧
          Accounted (.connect answers) client host lost after next gone) := by
  obtain ⟨tcp, middle, gone, opened, status, owned, same, all⟩ := tcp_connected answers client.tcp host lost.sockets owns.tcp
  have ssls : middle.ssls.Holds (client.socket.ssl.toList.map (·.handle) ++ lost.ssls) := same.ssls ▸ owns.ssls
  have contexts : middle.contexts.Holds
      (client.socket.ssl.toList.map (·.context) ++ (client.keptContext ++ lost.contexts)) := same.contexts ▸ owns.contexts
  have settled : Session client → ((⟨gone, [], client.keptContext⟩ : Lost) = nothingLost ↔
      client.socket.ssl = none ∧ TcpTidy answers client.tcp) := by
    intro session
    rw [← session_kept client session, ← all]
    simp [nothingLost, and_comm]
  cases reaches : answers.reaches with
  | false =>
      rw [reaches] at opened status
      have unkept : SslClient.keptContext { client with tcp } = [] := if_neg fun both => Bool.false_ne_true (status.mp both.2)
      refine ⟨fun null => absurd (reaches.symm.trans null.1) Bool.false_ne_true, fun _ =>
        ⟨false, { client with tcp }, middle, ⟨gone, [], client.keptContext⟩, ?_,
          ⟨same.closedUses, (congrArg _ same.ssls).ge, fun distinct => (same.sockets distinct).distinct,
            fun distinct _ some => .inl ⟨some, same.sockets distinct⟩⟩, ⟨owned, ssls, ?_⟩, ?_, ?_⟩⟩
      · simp [SslClient.connect, opened, bind, Except.bind]
      · rw [unkept]
        exact contexts
      · rintro session ⟨absent, tidy, _⟩
        exact ⟨(settled session).mpr ⟨absent, tidy⟩, fun present => absurd absent present, fun present => absurd absent present,
          fun ssl some => by rw [absent] at some; cases some⟩
      · intro session untidy nothing
        obtain ⟨absent, tidy⟩ := (settled session).mp nothing
        exact untidy ⟨absent, tidy, fun reached => absurd (reaches.symm.trans reached) Bool.false_ne_true⟩
  | true =>
      rw [reaches] at opened status
      obtain ⟨null, proper⟩ := session_started answers { client with tcp } middle (lost.append ⟨gone, [], client.keptContext⟩)
        (status.mpr rfl) owned ssls contexts
      have starts : client.connect answers host = SslClient.startSession answers { client with tcp } middle := by
        simp [SslClient.connect, opened, bind, Except.bind]
      have passes : (SslCall.connect answers).PassesNull client ↔
          answers.sslCtxNew = true ∧ client.loads answers = true ∧ answers.sslNew = false :=
        and_iff_right reaches
      rw [starts, passes]
      refine ⟨null, fun present => ?_⟩
      obtain ⟨done, after, next, more, started, owns, sameSockets, sameUses, issued, ssl, clean⟩ := proper present
      refine ⟨done, after, next, Lost.append ⟨gone, [], client.keptContext⟩ more, started, ⟨?_, ?_, ?_, ?_⟩, ?_, ?_, ?_⟩
      · exact sameUses.trans same.closedUses
      · rwa [← same.ssls]
      · rw [sameSockets]
        exact fun distinct => (same.sockets distinct).distinct
      · intro distinct last some
        rw [sameSockets]
        rcases ssl last some with kept | ⟨new, fd⟩
        · exact .inl ⟨kept, same.sockets distinct⟩
        · obtain ⟨socket, isSocket⟩ := Option.ne_none_iff_exists'.mp (owned.present (status.mpr rfl))
          have sockets := owned.sockets
          rw [TcpClient.held, status.mpr rfl] at sockets
          simp only [isSocket] at sockets
          exact .inr ⟨by rw [new, same.ssls], socket, fd.trans isSocket, Handles.holds_live _ _ _ sockets⟩
      · rw [lost_append]
        exact owns
      · rintro session ⟨absent, tidy, loads⟩
        obtain ⟨nothing, proper⟩ := clean absent
        exact ⟨(lost_nothing _ _).mpr ⟨(settled session).mpr ⟨absent, tidy⟩, nothing.mpr (loads reaches)⟩, proper⟩
      · intro session untidy nothing
        obtain ⟨first, second⟩ := (lost_nothing _ _).mp nothing
        obtain ⟨absent, tidy⟩ := (settled session).mp first
        exact untidy ⟨absent, tidy, fun _ => (clean absent).1.mp second⟩

theorem unchanged_accounted (call : SslCall) (client after : SslClient) (host : Host) (lost : Lost) (closedUses : List Nat)
    (same : after.tcp = client.tcp ∧ after.socket = client.socket) (tidy : call.Tidy client)
    (moved : SslMoved call client host after { host with closedUses }) (owns : Owns client host lost) :
    Accounted call client host lost after { host with closedUses } nothingLost := by
  obtain ⟨tcp, socket, certFile, caFile, keyFile⟩ := client
  obtain ⟨_, _, certPath, caPath, keyPath⟩ := after
  obtain ⟨rfl, rfl⟩ := same
  obtain ⟨⟨sockets, present, addrInfos, unset⟩, ssls, contexts⟩ := owns
  exact ⟨moved, ⟨⟨sockets, present, addrInfos, unset⟩, ssls, contexts⟩,
    fun session _ => ⟨rfl, ⟨session.connected, session.context, session.current⟩⟩, fun _ untidy => absurd tidy untidy⟩

theorem ssl_used (client : SslClient) (host : Host) (lost : Lost) (owns : Owns client host lost) :
    host.sslUse client.socket.ssl = if client.socket.ssl = none then .error .nullSsl else .ok () := by
  have ssls := owns.ssls
  cases same : client.socket.ssl with
  | none => rfl
  | some ssl =>
      rw [same] at ssls
      rw [if_neg (Option.some_ne_none ssl)]
      exact if_pos (Handles.holds_live _ _ _ ssls)

-- Send and Receive.
theorem ssl_transferred (call : SslCall) (client : SslClient) (host : Host) (lost : Lost) (owns : Owns client host lost)
    (transfers : call.transfers client = true ↔ client.tcp.status = .connected) (replaces : call.replaces client = [])
    (tidy : call.Tidy client) :
    (client.tcp.status = .connected ∧ client.socket.ssl = none → client.transfer host = .error .nullSsl) ∧
      (¬ (client.tcp.status = .connected ∧ client.socket.ssl = none) → ∃ next,
        client.transfer host = .ok (client, next) ∧ Accounted call client host lost client next nothingLost) := by
  have used := ssl_used client host lost owns
  by_cases connected : client.tcp.status = .connected
  · rw [SslClient.transfer, if_neg (not_not.mpr connected), Host.sslTransfer, used]
    refine ⟨fun null => ?_, fun proper => ?_⟩
    · rw [if_pos null.2]
      rfl
    · have present : client.socket.ssl ≠ none := fun absent => proper ⟨connected, absent⟩
      rw [if_neg present]
      refine ⟨_, rfl, unchanged_accounted call client client host lost _ ⟨rfl, rfl⟩ tidy ?_ owns⟩
      refine ⟨by rw [if_pos (transfers.mpr connected)], Nat.le_refl _, id, fun distinct ssl some => .inl ⟨some, ?_⟩⟩
      rw [replaces]
      exact Handles.follows_same _ distinct
  · have idle : call.transfers client = false := Bool.eq_false_iff.mpr fun moves => connected (transfers.mp moves)
    refine ⟨fun null => absurd null.1 connected, fun _ => ⟨host, if_pos connected, ?_⟩⟩
    exact unchanged_accounted call client client host lost _ ⟨rfl, rfl⟩ tidy (unmoved call client client host rfl idle replaces) owns

theorem call_accounted (call : SslCall) (client : SslClient) (host : Host) (lost : Lost) (owns : Owns client host lost) :
    (call.PassesNull client → call.run client host = .error .nullSsl) ∧
      (¬ call.PassesNull client → ∃ after next gone, call.run client host = .ok (after, next) ∧
        Accounted call client host lost after next gone) := by
  have used := ssl_used client host lost owns
  have pends : (client.socket.ssl = none → client.pending host = .error .nullSsl) ∧
      (client.socket.ssl ≠ none → client.pending host = .ok (client, host)) := by
    refine ⟨fun absent => ?_, fun present => ?_⟩
    · rw [SslClient.pending, used, if_pos absent]
      rfl
    · rw [SslClient.pending, used, if_neg present]
      rfl
  have unchanged : ∀ call : SslCall, call.transfers client = false → call.replaces client = [] → call.Tidy client →
      ∀ after : SslClient, after.tcp = client.tcp ∧ after.socket = client.socket →
        Accounted call client host lost after host nothingLost := fun call idle replaces tidy after same =>
    unchanged_accounted call client after host lost _ same tidy (unmoved call client after host same.2 idle replaces) owns
  cases call with
  | connect answers =>
      obtain ⟨null, proper⟩ := ssl_connected answers client host lost owns
      refine ⟨fun passes => ?_, fun present => ?_⟩
      · simp [SslCall.run, null passes, bind, Except.bind]
      · obtain ⟨done, after, next, gone, connected, accounted⟩ := proper present
        exact ⟨after, next, gone, by simp [SslCall.run, connected, bind, Except.bind], accounted⟩
  | disconnect shutdown =>
      obtain ⟨done, after, next, gone, closed, disconnected, owned, all, absent, moved⟩ :=
        ssl_disconnected shutdown client host lost owns
      refine ⟨False.elim, fun _ => ⟨after, next, gone, by simp [SslCall.run, closed, bind, Except.bind], moved, owned, ?_, ?_⟩⟩
      · intro session tidy
        have none := absent session
        exact ⟨all.mpr tidy, fun present => absurd none present, fun present => absurd none present,
          fun ssl some => by rw [none] at some; cases some⟩
      · exact fun _ untidy nothing => untidy (all.mp nothing)
  | send =>
      obtain ⟨null, proper⟩ := ssl_transferred .send client host lost owns
        (by cases status : client.tcp.status <;> simp [SslCall.transfers, status]) rfl trivial
      refine ⟨null, fun present => ?_⟩
      obtain ⟨next, sent, accounted⟩ := proper present
      exact ⟨client, next, nothingLost, sent, accounted⟩
  | receive =>
      obtain ⟨null, proper⟩ := ssl_transferred .receive client host lost owns
        (by cases status : client.tcp.status <;> simp [SslCall.transfers, status]) rfl trivial
      refine ⟨null, fun present => ?_⟩
      obtain ⟨next, received, accounted⟩ := proper present
      exact ⟨client, next, nothingLost, received, accounted⟩
  | hasPending => exact ⟨pends.1, fun present => ⟨client, host, nothingLost, pends.2 present,
      unchanged .hasPending rfl rfl trivial client ⟨rfl, rfl⟩⟩⟩
  | pendingBytes => exact ⟨pends.1, fun present => ⟨client, host, nothingLost, pends.2 present,
      unchanged .pendingBytes rfl rfl trivial client ⟨rfl, rfl⟩⟩⟩
  | setSslCertFile path =>
      exact ⟨False.elim, fun _ => ⟨_, host, nothingLost, rfl, unchanged (.setSslCertFile path) rfl rfl trivial _ ⟨rfl, rfl⟩⟩⟩
  | setSslCerthAuth path =>
      exact ⟨False.elim, fun _ => ⟨_, host, nothingLost, rfl, unchanged (.setSslCerthAuth path) rfl rfl trivial _ ⟨rfl, rfl⟩⟩⟩
  | setSslKeyFile path =>
      exact ⟨False.elim, fun _ => ⟨_, host, nothingLost, rfl, unchanged (.setSslKeyFile path) rfl rfl trivial _ ⟨rfl, rfl⟩⟩⟩

def Whole (state : SslClient × Host) : Prop := Owns state.1 state.2 nothingLost ∧ Session state.1

def Leaking (state : SslClient × Host) : Prop := ∃ lost, lost ≠ nothingLost ∧ Owns state.1 state.2 lost

theorem fresh_whole : Whole (SslClient.fresh, Host.fresh) := by
  have empty := Handles.empty_holds
  exact ⟨⟨⟨empty, (fun connected => by cases connected), empty, rfl⟩, empty, empty⟩, fun present => absurd rfl present,
    fun present => absurd rfl present, fun _ some => by cases some⟩

theorem step_accounted (client : SslClient) (host : Host) (call : SslCall) (next : SslClient × Host) (lost : Lost)
    (owns : Owns client host lost) (step : call.run client host = .ok next) :
    ∃ gone, Accounted call client host lost next.1 next.2 gone := by
  obtain ⟨null, proper⟩ := call_accounted call client host lost owns
  by_cases passes : call.PassesNull client
  · rw [null passes] at step
    cases step
  · obtain ⟨after, host', gone, ran, accounted⟩ := proper passes
    rw [step] at ran
    obtain rfl := Except.ok.inj ran
    exact ⟨gone, accounted⟩

-- What a run has made of the SSL that the client has now: its socket is closed just when a Connect
-- on the way has closed it and left the SSL in place.
structure Traced (trace : List ((SslClient × Host) × SslCall)) (client : SslClient) (host : Host) : Prop where
  owns : ∃ lost, Owns client host lost
  distinct : host.sockets.Distinct
  issued : ∀ taken ∈ trace, ∀ ssl, taken.1.1.socket.ssl = some ssl → ssl.handle < host.ssls.next
  closed : ∀ ssl, client.socket.ssl = some ssl → ∃ fd, ssl.fd = some fd ∧ fd < host.sockets.next ∧
    (fd ∉ host.sockets.references ↔ ∃ taken ∈ trace, taken.2.Strands taken.1.1 ssl)

theorem ssl_issued (client : SslClient) (host : Host) (lost : Lost) (owns : Owns client host lost) (ssl : Ssl)
    (present : client.socket.ssl = some ssl) : ssl.handle < host.ssls.next :=
  owns.ssls.issued _ (by simp [present])

theorem step_traced (trace : List ((SslClient × Host) × SslCall)) (client after : SslClient) (host next : Host)
    (call : SslCall) (traced : Traced trace client host) (step : call.run client host = .ok (after, next)) :
    Traced (trace ++ [((client, host), call)]) after next := by
  obtain ⟨⟨lost, owns⟩, distinct, issued, closed⟩ := traced
  obtain ⟨gone, accounted⟩ := step_accounted client host call (after, next) lost owns step
  have moved := accounted.moved
  have known : ∀ taken ∈ trace ++ [((client, host), call)], ∀ ssl, taken.1.1.socket.ssl = some ssl →
      ssl.handle < host.ssls.next := by
    intro taken member ssl present
    rcases List.mem_append.mp member with earlier | last
    · exact issued taken earlier ssl present
    · obtain rfl := List.mem_singleton.mp last
      exact ssl_issued client host lost owns ssl present
  refine ⟨⟨_, accounted.owns⟩, moved.distinct distinct, ?_, ?_⟩
  · exact fun taken member ssl present => Nat.lt_of_lt_of_le (known taken member ssl present) moved.issued
  · intro ssl present
    rcases moved.ssl distinct ssl present with ⟨kept, follows⟩ | ⟨new, fd, isFd, live⟩
    · obtain ⟨fd, isFd, older, strands⟩ := closed ssl kept
      refine ⟨fd, isFd, Nat.lt_of_lt_of_le older follows.next, ?_⟩
      have here : call.Strands client ssl ↔ fd ∈ call.replaces client := by
        refine ⟨fun ⟨_, other, replaced, isOther⟩ => ?_, fun replaced => ⟨kept, fd, replaced, isFd⟩⟩
        rwa [Option.some.inj (isFd.symm.trans isOther)]
      rw [follows.live fd older, not_and_or, not_not, strands, ← here]
      simp [or_and_right, exists_or]
    · refine ⟨fd, isFd, (moved.distinct distinct).issued fd live, iff_of_false (not_not.mpr live) ?_⟩
      rintro ⟨taken, member, had, _⟩
      exact absurd (known taken member ssl had) (Nat.not_lt.mpr new)

theorem run_traced (trace : List ((SslClient × Host) × SslCall)) (state : SslClient × Host)
    (run : Transition.Run sslClient trace state) : Traced trace state.1 state.2 := by
  induction run with
  | start state first =>
      obtain rfl := first
      exact ⟨⟨_, fresh_whole.1⟩, Handles.empty_distinct, by simp, fun _ none => by cases none⟩
  | step trace state call next run taken ih => exact step_traced trace state.1 next.1 state.2 next.2 call ih taken

theorem closed_of_stranded (trace : List ((SslClient × Host) × SslCall)) (client : SslClient) (host : Host)
    (traced : Traced trace client host) :
    host.closedOf client.socket.ssl = [] ↔
      ¬ ∃ ssl, client.socket.ssl = some ssl ∧ ∃ taken ∈ trace, taken.2.Strands taken.1.1 ssl := by
  cases present : client.socket.ssl with
  | none => simp [Host.closedOf]
  | some ssl =>
      obtain ⟨fd, isFd, _, strands⟩ := traced.closed ssl present
      have only : (∃ other, some ssl = some other ∧ ∃ taken ∈ trace, taken.2.Strands taken.1.1 other) ↔
          fd ∉ host.sockets.references := by
        rw [strands]
        simp
      rw [only, Host.closedOf, Option.bind_some, isFd]
      simp

-- In any order of calls and with any answers, no pointer is used or released after its object is
-- gone: the only misuse is a null SSL, and these are the calls that pass it on. A socket can be used
-- after it is closed, by a call that goes through an SSL which a Connect has left on the old one.
theorem ssl_misused_iff (trace : List ((SslClient × Host) × SslCall)) (client : SslClient) (host : Host)
    (run : Transition.Run sslClient trace (client, host)) (call : SslCall) :
    (∀ misuse, call.run client host = .error misuse ↔ misuse = .nullSsl ∧ call.PassesNull client) ∧
      ∀ next, call.run client host = .ok next →
        (next.2.closedUses = host.closedUses ↔
          ¬ (call.transfers client = true ∧
            ∃ ssl, client.socket.ssl = some ssl ∧ ∃ taken ∈ trace, taken.2.Strands taken.1.1 ssl)) := by
  have traced := run_traced trace (client, host) run
  obtain ⟨lost, owns⟩ := traced.owns
  obtain ⟨null, proper⟩ := call_accounted call client host lost owns
  by_cases passes : call.PassesNull client
  · refine ⟨fun misuse => ?_, fun next ran => ?_⟩
    · rw [null passes]
      exact ⟨fun same => ⟨(Except.error.inj same).symm, passes⟩, fun both => congrArg _ both.1.symm⟩
    · rw [null passes] at ran
      cases ran
  · obtain ⟨after, next, gone, ran, accounted⟩ := proper passes
    refine ⟨fun misuse => ?_, fun reached same => ?_⟩
    · rw [ran]
      exact iff_of_false (fun same => by cases same) fun both => passes both.2
    · rw [ran] at same
      obtain rfl := Except.ok.inj same
      rw [accounted.moved.uses, List.append_left_eq_self, not_and, ← closed_of_stranded trace client host traced]
      cases call.transfers client <;> simp

def openAnswers : Answers := ⟨true, .found, true, true, true, true, true, true, true, true, true⟩

-- The second Connect closes the socket of the first SSL and gets no context: IsConnected holds, and
-- Send writes through the first SSL to the closed socket.
theorem ssl_misused_stranded : ∃ trace client host, Transition.Run sslClient trace (client, host) ∧
    (∀ misuse, SslCall.send.run client host = .error misuse ↔ misuse = .nullSsl ∧ SslCall.send.PassesNull client) ∧
    ∃ next, SslCall.send.run client host = .ok next ∧ next.2.closedUses = [0] ∧
      (next.2.closedUses = host.closedUses ↔
        ¬ (SslCall.send.transfers client = true ∧
          ∃ ssl, client.socket.ssl = some ssl ∧ ∃ taken ∈ trace, taken.2.Strands taken.1.1 ssl)) := by
  have opened : Transition.Run sslClient [] (SslClient.fresh, Host.fresh) := .start _ rfl
  have connected : (SslCall.connect openAnswers).run SslClient.fresh Host.fresh =
      .ok (⟨⟨.connected, some 0, none⟩, ⟨some 0, some ⟨0, 0, some 0⟩, some 0⟩, [], [], []⟩,
        ⟨⟨1, [0]⟩, ⟨1, []⟩, ⟨1, [0]⟩, ⟨1, [0, 0]⟩, []⟩) := by decide
  have again : (SslCall.connect { openAnswers with sslCtxNew := false }).run
        ⟨⟨.connected, some 0, none⟩, ⟨some 0, some ⟨0, 0, some 0⟩, some 0⟩, [], [], []⟩
        ⟨⟨1, [0]⟩, ⟨1, []⟩, ⟨1, [0]⟩, ⟨1, [0, 0]⟩, []⟩ =
      .ok (⟨⟨.connected, some 1, none⟩, ⟨some 1, some ⟨0, 0, some 0⟩, none⟩, [], [], []⟩,
        ⟨⟨2, [1]⟩, ⟨2, []⟩, ⟨1, [0]⟩, ⟨1, [0, 0]⟩, []⟩) := by decide
  have run := Transition.Run.step _ _ _ _ (.step _ _ _ _ opened connected) again
  obtain ⟨misused, uses⟩ := ssl_misused_iff _ _ _ run .send
  exact ⟨_, _, _, run, misused, _, rfl, rfl, uses _ rfl⟩

theorem ssl_destroyed (shutdown : Bool) (client : SslClient) (host : Host) (lost : Lost) (owns : Owns client host lost) :
    ∃ after left gone, client.destroy shutdown host = .ok left ∧ after.tcp.status = .disconnected ∧
      Owns after left (lost.append gone) ∧ (gone = nothingLost ↔ (client.tcp.status = .connected → shutdown = true)) ∧
      (Session client → after.socket.ssl = none) := by
  obtain ⟨done, after, left, gone, closed, disconnected, owned, all, absent, _⟩ := ssl_disconnected shutdown client host lost owns
  refine ⟨after, left, gone, ?_, disconnected, owned, all, absent⟩
  have idle : after.tcp.disconnect shutdown left = .ok (true, after.tcp, left) := if_pos (by simp [disconnected])
  cases status : client.tcp.status with
  | connected => simp [SslClient.destroy, status, closed, idle, bind, Except.bind]
  | disconnected =>
      rw [SslClient.disconnect, if_pos (by simp [status])] at closed
      obtain ⟨_, rest⟩ := Prod.mk.inj (Except.ok.inj closed)
      obtain ⟨_, rfl⟩ := Prod.mk.inj rest
      exact if_pos (by simp [status])

theorem left_released (after : SslClient) (left : Host) (lost : Lost) (disconnected : after.tcp.status = .disconnected)
    (owns : Owns after left lost) :
    (left.Released → lost = nothingLost) ∧ (after.socket.ssl = none → lost = nothingLost → left.Released) := by
  have unheld : after.tcp.held = [] := by rw [TcpClient.held, disconnected]
  have sockets := owns.tcp.sockets
  rw [unheld] at sockets
  constructor
  · intro released
    have none := (Handles.holds_nil _ _ sockets).mp released.sockets
    have noSsl := (Handles.holds_nil _ _ owns.ssls).mp released.ssls
    have noContext := (Handles.holds_nil _ _ owns.contexts).mp released.contexts
    simp only [List.append_eq_nil_iff] at none noSsl noContext
    obtain ⟨lostSockets, lostSsls, lostContexts⟩ := lost
    obtain ⟨_, rfl⟩ := none
    obtain ⟨_, rfl⟩ := noSsl
    obtain ⟨_, _, rfl⟩ := noContext
    rfl
  · rintro absent rfl
    have kept : after.keptContext = [] := if_neg fun both => both.1 absent
    refine ⟨(Handles.holds_nil _ _ sockets).mpr rfl, (Handles.holds_nil _ _ owns.tcp.addrInfos).mpr rfl,
      (Handles.holds_nil _ _ owns.ssls).mpr ?_, (Handles.holds_nil _ _ owns.contexts).mpr ?_⟩
    · rw [absent]
      rfl
    · rw [absent, kept]
      rfl

-- After the destructor nothing is left open or unreleased exactly when no call on the way, and not
-- the destructor itself, gave anything up: a connection that is replaced while it has an SSL, a
-- failed shutdown, a refused connect and a file that does not load all do.
theorem ssl_released_iff (trace : List ((SslClient × Host) × SslCall)) (client : SslClient) (host : Host)
    (run : Transition.Run sslClient trace (client, host)) (shutdown : Bool) :
    ∃ left, client.destroy shutdown host = .ok left ∧
      (left.Released ↔ (∀ taken ∈ trace, taken.2.Tidy taken.1.1) ∧ (client.tcp.status = .connected → shutdown = true)) := by
  have decided := Transition.run_decides sslClient Whole Leaking (fun state call => call.Tidy state.1)
    (fun state first => first ▸ fresh_whole)
    (by
      rintro ⟨before, hostBefore⟩ call next ⟨owns, session⟩ tidy step
      obtain ⟨gone, accounted⟩ := step_accounted before hostBefore call next _ owns step
      obtain ⟨rfl, kept⟩ := accounted.tidy session tidy
      exact ⟨accounted.owns, kept⟩)
    (by
      rintro ⟨before, hostBefore⟩ call next ⟨owns, session⟩ untidy step
      obtain ⟨gone, accounted⟩ := step_accounted before hostBefore call next _ owns step
      exact ⟨_, fun nothing => accounted.untidy session untidy ((lost_nothing _ _).mp nothing).2, accounted.owns⟩)
    (by
      rintro ⟨before, hostBefore⟩ call next ⟨lost, some, owns⟩ step
      obtain ⟨gone, accounted⟩ := step_accounted before hostBefore call next _ owns step
      exact ⟨_, fun nothing => some ((lost_nothing _ _).mp nothing).1, accounted.owns⟩)
    trace (client, host) run
  rcases decided with ⟨⟨owns, session⟩, tidy⟩ | ⟨⟨lost, some, owns⟩, taken, member, untidy⟩
  · obtain ⟨after, left, gone, destroyed, disconnected, owned, all, absent⟩ := ssl_destroyed shutdown client host _ owns
    obtain ⟨lossless, released⟩ := left_released after left _ disconnected owned
    refine ⟨left, destroyed, fun clean => ⟨tidy, all.mp ((lost_nothing _ _).mp (lossless clean)).2⟩, fun both => ?_⟩
    exact released (absent session) ((lost_nothing _ _).mpr ⟨rfl, all.mpr both.2⟩)
  · obtain ⟨after, left, gone, destroyed, disconnected, owned, _, _⟩ := ssl_destroyed shutdown client host lost owns
    obtain ⟨lossless, _⟩ := left_released after left _ disconnected owned
    refine ⟨left, destroyed, iff_of_false (fun clean => ?_) fun both => untidy (both.1 taken member)⟩
    exact some ((lost_nothing _ _).mp (lossless clean)).1

-- The second Connect closes the first socket, and the first SSL and its context are never released.
theorem ssl_released_reconnected : ∃ trace client host, Transition.Run sslClient trace (client, host) ∧
    ∃ left, client.destroy true host = .ok left ∧
      (left.Released ↔ (∀ taken ∈ trace, taken.2.Tidy taken.1.1) ∧ (client.tcp.status = .connected → true = true)) ∧
      left.ssls.references = [0] ∧ left.contexts.references = [0, 0] := by
  have opened : Transition.Run sslClient [] (SslClient.fresh, Host.fresh) := .start _ rfl
  have connected : (SslCall.connect openAnswers).run SslClient.fresh Host.fresh =
      .ok (⟨⟨.connected, some 0, none⟩, ⟨some 0, some ⟨0, 0, some 0⟩, some 0⟩, [], [], []⟩,
        ⟨⟨1, [0]⟩, ⟨1, []⟩, ⟨1, [0]⟩, ⟨1, [0, 0]⟩, []⟩) := by decide
  have again : (SslCall.connect openAnswers).run ⟨⟨.connected, some 0, none⟩, ⟨some 0, some ⟨0, 0, some 0⟩, some 0⟩, [], [], []⟩
        ⟨⟨1, [0]⟩, ⟨1, []⟩, ⟨1, [0]⟩, ⟨1, [0, 0]⟩, []⟩ =
      .ok (⟨⟨.connected, some 1, none⟩, ⟨some 1, some ⟨1, 1, some 1⟩, some 1⟩, [], [], []⟩,
        ⟨⟨2, [1]⟩, ⟨2, []⟩, ⟨2, [1, 0]⟩, ⟨2, [1, 1, 0, 0]⟩, []⟩) := by decide
  have run := Transition.Run.step _ _ _ _ (.step _ _ _ _ opened connected) again
  obtain ⟨left, destroyed, released⟩ := ssl_released_iff _ _ _ run true
  have ends : SslClient.destroy true ⟨⟨.connected, some 1, none⟩, ⟨some 1, some ⟨1, 1, some 1⟩, some 1⟩, [], [], []⟩
        ⟨⟨2, [1]⟩, ⟨2, []⟩, ⟨2, [1, 0]⟩, ⟨2, [1, 1, 0, 0]⟩, []⟩ =
      .ok ⟨⟨2, []⟩, ⟨2, []⟩, ⟨2, [0]⟩, ⟨2, [0, 0]⟩, []⟩ := by decide
  rw [ends] at destroyed
  obtain rfl := Except.ok.inj destroyed
  exact ⟨_, _, _, run, _, ends, released, rfl, rfl⟩

end PushReceiver
