import PushReceiver.FcmClient

set_option autoImplicit false

namespace PushReceiver

structure Setting where
  name : Bytes
  value : Bytes
deriving DecidableEq, Repr

-- The fields SendLoginBuffer sets, in its order; the enumeration by its value.
structure LoginRequest where
  adaptiveHeartbeat : Bool
  authService : Nat
  authToken : Bytes
  id : Bytes
  domain : Bytes
  deviceId : Bytes
  networkType : Int
  resource : Bytes
  user : Bytes
  useRmq2 : Bool
  setting : List Setting
  receivedPersistentId : List Bytes
deriving DecidableEq, Repr

-- What is left of a std::string that is read through c_str().
def cStr (text : Bytes) : Bytes := text.takeWhile (· ≠ 0)

-- UtilFunction::DecimalToHex
def decimalToHex (decimalStr : Bytes) : Except Exception Bytes := do
  let decimalValue ← stoull decimalStr
  return (Nat.toDigits 16 decimalValue).map fun c => UInt8.ofNat c.toUpper.toNat

def loginRequest (client : FcmClient) : Except Exception LoginRequest := do
  let androidIdHex ← decimalToHex client.androidId
  return { adaptiveHeartbeat := false
           authService := 2
           authToken := cStr client.securityToken
           id := ascii "chrome-87.0.4280.66"
           domain := ascii "mcs.android.com"
           deviceId := ascii "android-" ++ androidIdHex
           networkType := 1
           resource := cStr client.androidId
           user := cStr client.androidId
           useRmq2 := true
           setting := [⟨ascii "new_vc", ascii "1"⟩]
           receivedPersistentId := (client.receiver.app.persistentIds.filter (· ≠ [])).map cStr }

def loginBuffer (serialized : Bytes) : Bytes :=
  UInt8.ofNat kMCSVersion :: MCSProtoTag.kLoginRequestTag.value ::
    (encodeVarint32 (UInt32.ofNat serialized.length) ++ serialized)

-- What SSL_write has done so far: the bytes it accepted and the results of its calls.
structure Written where
  accepted : Bytes
  results : List Int
deriving DecidableEq, Repr

def Written.nothing : Written := ⟨[], []⟩

-- A call of SSL_write never accepts more bytes than it is offered, as an int.
def sslWritten (result : Int) (offered : Nat) : Int := min result (toInt offered)

-- The do-while loop of CTCPSSLClient::Send. `sslWrite` numbers the calls of a connection.
def sendFully (sslWrite : Nat → Int) (data : Bytes) (total : Nat) (written : Written) : Bool × Written :=
  let nSent := sslWritten (sslWrite written.results.length) (data.length - total)
  let next : Written :=
    { accepted := written.accepted ++ (data.drop total).take nSent.toNat, results := written.results ++ [nSent] }
  if nSent ≤ 0 then (false, next)
  else if total + nSent.toNat < data.length then sendFully sslWrite data (total + nSent.toNat) next
  else (true, next)
termination_by data.length - total
decreasing_by
  rename_i positive more
  omega

def sslSend (connected : Bool) (sslWrite : Nat → Int) (data : Bytes) : Bool × Written :=
  if connected then sendFully sslWrite data 0 .nothing else (false, .nothing)

def socketError : Int := -1

-- The network as ConnectToServer meets it, and SerializeToString for the LoginRequest.
structure Connection where
  connects : Bool
  sslWrite : Nat → Int
  serialize : LoginRequest → Bytes

-- Send gives a bool, which is compared as the number 0 or 1.
def sendLoginBuffer (connection : Connection) (client : FcmClient) : Except Exception Unit × Written :=
  match loginRequest client with
  | .error exception => (.error exception, .nothing)
  | .ok request =>
      let (sent, written) := sslSend true connection.sslWrite (loginBuffer (connection.serialize request))
      let nBytesSent : Int := if sent then 1 else 0
      if nBytesSent = socketError then (.error (.runtimeError "Send login request failed"), written)
      else (.ok (), written)

structure Connected where
  returned : Except Exception Bool
  client : FcmClient
  written : Written

-- The answer of the check-in is only logged, and nothing of the receiver is set anew.
def connectToServer (connection : Connection) (client : FcmClient) : Connected :=
  match client.loginIds with
  | none => ⟨.ok false, client, .nothing⟩
  | some _ =>
      if connection.connects then
        let client := { client with
          receiver.app := client.receiver.app.emit "connected" (ascii "[CFCMClient][INFO] Connected to server") }
        match sendLoginBuffer connection client with
        | (.error exception, written) => ⟨.error exception, client, written⟩
        | (.ok (), written) => ⟨.ok true, client, written⟩
      else ⟨.ok false, client, .nothing⟩

def acceptedBefore (sslWrite : Nat → Int) : Nat → Nat
  | 0 => 0
  | call + 1 => acceptedBefore sslWrite call + (sslWrite call).toNat

-- No call fails before `size` bytes are accepted; an int can offer them all at once.
def Accepts (sslWrite : Nat → Int) (size : Nat) : Prop :=
  size < 2147483648 ∧ ∀ call, acceptedBefore sslWrite call < size → 0 < sslWrite call

-- What ConnectToServer promises with a result of true.
structure LoginSent (connection : Connection) (client : FcmClient) (outcome : Connected) : Prop where
  complete : outcome.returned = .ok true → ∃ request, loginRequest client = .ok request ∧
    outcome.written.accepted = loginBuffer (connection.serialize request)
  failed : (∃ result ∈ outcome.written.results, result ≤ 0) → outcome.returned ≠ .ok true

theorem accepted_grows (sslWrite : Nat → Int) (call later : Nat) (order : call ≤ later) :
    acceptedBefore sslWrite call ≤ acceptedBefore sslWrite later := by
  induction order with
  | refl => exact Nat.le_refl _
  | step _ ih => exact Nat.le_trans ih (Nat.le_add_right _ _)

theorem ssl_written_small (result : Int) (offered : Nat) (small : offered < 2147483648) :
    sslWritten result offered = min result offered := by
  rw [sslWritten, to_int_small _ (by omega) (by omega)]

theorem send_fully_succeeds (sslWrite : Nat → Int) (data : Bytes) (total : Nat) (written : Written)
    (small : data.length < 2147483648) (started : total < data.length)
    (counted : acceptedBefore sslWrite written.results.length = total) :
    (sendFully sslWrite data total written).1 = true ↔
      ∀ call, written.results.length ≤ call → acceptedBefore sslWrite call < data.length → 0 < sslWrite call := by
  induction total, written using sendFully.induct sslWrite data with
  | case1 total written nSent refused =>
      have sent := ssl_written_small (sslWrite written.results.length) (data.length - total) (by omega)
      simp only [nSent] at refused
      unfold sendFully
      simp only [refused, if_true]
      rw [sent] at refused
      refine iff_of_false Bool.false_ne_true fun succeed => ?_
      have positive := succeed written.results.length (Nat.le_refl _) (by omega)
      omega
  | case2 total written nSent next positive more ih =>
      have sent := ssl_written_small (sslWrite written.results.length) (data.length - total) (by omega)
      have nextCall : next.results.length = written.results.length + 1 := List.length_append
      simp only [nSent] at positive more
      unfold sendFully
      simp only [positive, more, if_true, if_false]
      have isTotal : acceptedBefore sslWrite next.results.length = total + nSent.toNat := by
        simp only [nSent, sent] at positive more ⊢
        rw [nextCall, acceptedBefore, counted]
        omega
      rw [ih more isTotal, nextCall]
      rw [sent] at positive
      constructor
      · intro succeed call fromHere within
        by_cases here : call = written.results.length
        · rw [here]
          omega
        · exact succeed call (by omega) within
      · intro succeed call fromNext within
        exact succeed call (by omega) within
  | case3 total written nSent positive done =>
      have sent := ssl_written_small (sslWrite written.results.length) (data.length - total) (by omega)
      simp only [nSent] at positive done
      unfold sendFully
      simp only [positive, done, if_false]
      rw [sent] at positive done
      refine iff_of_true trivial fun call fromHere within => ?_
      by_cases here : call = written.results.length
      · rw [here]
        omega
      · have later := accepted_grows sslWrite (written.results.length + 1) call (by omega)
        rw [acceptedBefore, counted] at later
        omega

-- What an int cannot offer at once stays out of reach: the offers come down to a multiple of 2^32.
theorem ssl_written_large (result : Int) (offered : Nat) (large : 2147483648 ≤ offered) (positive : ¬ sslWritten result offered ≤ 0) :
    2147483648 ≤ offered - (sslWritten result offered).toNat := by
  unfold sslWritten toInt at *
  omega

theorem send_fully_fails (sslWrite : Nat → Int) (data : Bytes) (total : Nat) (written : Written)
    (large : 2147483648 ≤ data.length - total) : (sendFully sslWrite data total written).1 = false := by
  induction total, written using sendFully.induct sslWrite data with
  | case1 total written nSent refused =>
      simp only [nSent] at refused
      unfold sendFully
      simp only [refused, if_true]
  | case2 total written nSent next positive more ih =>
      have left := ssl_written_large _ _ large positive
      simp only [nSent] at positive more
      unfold sendFully
      simp only [positive, more, if_true, if_false]
      exact ih (by simp only [nSent]; omega)
  | case3 total written nSent positive done =>
      have left := ssl_written_large _ _ large positive
      simp only [nSent] at done
      omega

theorem send_all_iff (sslWrite : Nat → Int) (data : Bytes) (nonempty : data ≠ []) :
    (sendFully sslWrite data 0 .nothing).1 = true ↔ Accepts sslWrite data.length := by
  by_cases small : data.length < 2147483648
  · rw [send_fully_succeeds sslWrite data 0 .nothing small (List.length_pos_iff.mpr nonempty) rfl]
    exact ⟨fun succeed => ⟨small, fun call => succeed call (Nat.zero_le call)⟩, fun accepts call _ => accepts.2 call⟩
  · rw [send_fully_fails sslWrite data 0 .nothing (Nat.le_of_not_lt small)]
    exact iff_of_false Bool.false_ne_true fun accepts => small accepts.1

theorem send_fully_written (sslWrite : Nat → Int) (data : Bytes) (total : Nat) (written : Written) :
    ((sendFully sslWrite data total written).1 = true →
        (sendFully sslWrite data total written).2.accepted = written.accepted ++ data.drop total) ∧
      ((∃ result ∈ (sendFully sslWrite data total written).2.results, result ≤ 0) ↔
        (∃ result ∈ written.results, result ≤ 0) ∨ (sendFully sslWrite data total written).1 = false) := by
  induction total, written using sendFully.induct sslWrite data with
  | case1 total written nSent refused =>
      simp only [nSent] at refused
      unfold sendFully
      simp only [refused, if_true]
      refine ⟨nofun, iff_of_true ⟨_, List.mem_append_right _ (List.mem_singleton_self _), refused⟩ (.inr trivial)⟩
  | case2 total written nSent next positive more ih =>
      have earlier : (∃ result ∈ next.results, result ≤ 0) ↔ ∃ result ∈ written.results, result ≤ 0 := by
        simp only [next, List.mem_append, List.mem_singleton, or_and_right, exists_or, exists_eq_left, positive, or_false]
      have accepted : next.accepted ++ data.drop (total + nSent.toNat) = written.accepted ++ data.drop total := by
        simp only [next]
        rw [List.append_assoc, ← List.drop_drop, List.take_append_drop]
      rw [earlier, accepted] at ih
      simp only [nSent] at positive more
      unfold sendFully
      simp only [positive, more, if_true, if_false]
      exact ih
  | case3 total written nSent positive done =>
      simp only [nSent] at positive done
      have whole : (data.drop total).take (sslWritten (sslWrite written.results.length) (data.length - total)).toNat =
          data.drop total :=
        List.take_of_length_le (by rw [List.length_drop]; omega)
      unfold sendFully
      simp only [positive, done, if_false, whole]
      simp [positive]

-- The comparison with SOCKET_ERROR never holds, so the login is reported as sent in any case.
theorem login_buffer_sent (connection : Connection) (client : FcmClient) (request : LoginRequest)
    (requested : loginRequest client = .ok request) :
    sendLoginBuffer connection client =
      (.ok (), (sslSend true connection.sslWrite (loginBuffer (connection.serialize request))).2) := by
  simp only [sendLoginBuffer, requested, socketError]
  cases (sslSend true connection.sslWrite (loginBuffer (connection.serialize request))).1 <;> rfl

theorem login_request_made (client : FcmClient) (ids : Nat × Nat) (read : client.loginIds = some ids) :
    ∃ request, loginRequest client = .ok request := by
  unfold FcmClient.loginIds at read
  unfold loginRequest decimalToHex
  cases isId : stoull client.androidId with
  | error exception =>
      rw [isId] at read
      cases read
  | ok androidId => exact ⟨_, rfl⟩

theorem connect_outcome (connection : Connection) (client : FcmClient) (ids : Nat × Nat) (request : LoginRequest)
    (read : client.loginIds = some ids) (requested : loginRequest client = .ok request) (connects : connection.connects = true) :
    (connectToServer connection client).returned = .ok true ∧
      (connectToServer connection client).written =
        (sendFully connection.sslWrite (loginBuffer (connection.serialize request)) 0 .nothing).2 := by
  have sent := login_buffer_sent connection { client with
    receiver.app := client.receiver.app.emit "connected" (ascii "[CFCMClient][INFO] Connected to server") } request requested
  simp only [connectToServer, read, connects, if_true, sent]
  exact ⟨trivial, rfl⟩

theorem connect_never_throws (connection : Connection) (client : FcmClient) :
    ∃ connected, (connectToServer connection client).returned = .ok connected := by
  cases read : client.loginIds with
  | none => exact ⟨false, by simp only [connectToServer, read]⟩
  | some ids =>
      cases connects : connection.connects with
      | false => exact ⟨false, by simp [connectToServer, read, connects]⟩
      | true =>
          obtain ⟨request, requested⟩ := login_request_made client ids read
          exact ⟨true, (connect_outcome connection client ids request read requested connects).1⟩

theorem login_sent_iff (connection : Connection) (client : FcmClient) :
    LoginSent connection client (connectToServer connection client) ↔
      (client.loginIds = none ∨ connection.connects = false ∨
        ∀ request, loginRequest client = .ok request →
          Accepts connection.sslWrite (loginBuffer (connection.serialize request)).length) := by
  cases read : client.loginIds with
  | none =>
      refine iff_of_true ?_ (.inl rfl)
      simp only [connectToServer, read]
      exact ⟨nofun, nofun⟩
  | some ids =>
      cases connects : connection.connects with
      | false =>
          refine iff_of_true ?_ (.inr (.inl rfl))
          simp only [connectToServer, read, connects]
          exact ⟨nofun, nofun⟩
      | true =>
          obtain ⟨request, requested⟩ := login_request_made client ids read
          obtain ⟨returned, written⟩ := connect_outcome connection client ids request read requested connects
          obtain ⟨accepted, failures⟩ := send_fully_written connection.sslWrite (loginBuffer (connection.serialize request)) 0
            .nothing
          have sends := send_all_iff connection.sslWrite (loginBuffer (connection.serialize request)) (List.cons_ne_nil _ _)
          have condition : (some ids = none ∨ true = false ∨ ∀ request, loginRequest client = .ok request →
              Accepts connection.sslWrite (loginBuffer (connection.serialize request)).length) ↔
              Accepts connection.sslWrite (loginBuffer (connection.serialize request)).length := by
            simp [requested]
          rw [condition, ← sends]
          constructor
          · intro promised
            by_contra failed
            refine promised.failed ?_ returned
            rw [written]
            exact failures.mpr (.inr (Bool.eq_false_iff.mpr failed))
          · intro succeeded
            constructor
            · intro _
              refine ⟨request, requested, ?_⟩
              rw [written, accepted succeeded]
              rfl
            · intro failed
              rw [written, failures, succeeded] at failed
              rcases failed with ⟨_, none, _⟩ | impossible
              · cases none
              · cases impossible

def loginClient : FcmClient where
  androidId := ascii "7"
  securityToken := ascii "8"
  rawSubPrivKey := List.replicate 32 1
  authSecret := List.replicate 16 2
  receiver := .fresh (.loaded [])

-- The LoginRequest of `loginClient` as protobuf writes it, by field number.
def loginSerialized : Bytes :=
  [0x0A, 19] ++ ascii "chrome-87.0.4280.66" ++ [0x12, 15] ++ ascii "mcs.android.com" ++ [0x1A, 1, 0x37, 0x22, 1, 0x37, 0x2A, 1, 0x38,
    0x32, 9] ++ ascii "android-7" ++ [0x42, 11, 0x0A, 6] ++ ascii "new_vc" ++ [0x12, 1, 0x31, 0x60, 0, 0x70, 1, 0x80, 0x01, 2, 0x88, 0x01, 1]

-- The first SSL_write fails, nothing is sent, and the connection is reported as made.
theorem refused_login_connects :
    (connectToServer ⟨true, fun _ => -1, fun _ => loginSerialized⟩ loginClient).returned = .ok true ∧
      (connectToServer ⟨true, fun _ => -1, fun _ => loginSerialized⟩ loginClient).written = ⟨[], [-1]⟩ ∧
      ¬ LoginSent ⟨true, fun _ => -1, fun _ => loginSerialized⟩ loginClient
        (connectToServer ⟨true, fun _ => -1, fun _ => loginSerialized⟩ loginClient) := by
  obtain ⟨request, requested⟩ := login_request_made loginClient (7, 8) (by decide +kernel)
  obtain ⟨returned, written⟩ := connect_outcome ⟨true, fun _ => -1, fun _ => loginSerialized⟩ loginClient (7, 8) request
    (by decide +kernel) requested rfl
  have nothing : (sendFully (fun _ => -1) (loginBuffer loginSerialized) 0 .nothing).2 = ⟨[], [-1]⟩ := by
    have short : (loginBuffer loginSerialized).length < 2147483648 := by decide +kernel
    have refused : sslWritten (-1) ((loginBuffer loginSerialized).length - 0) = -1 := by
      rw [Nat.sub_zero, ssl_written_small _ _ short]
      omega
    unfold sendFully
    simp only [refused]
    rfl
  refine ⟨returned, written.trans nothing, fun promised => ?_⟩
  refine promised.failed ⟨-1, ?_, by decide⟩ returned
  rw [written, nothing]
  exact List.mem_singleton_self _

end PushReceiver
