import PushReceiver.Delivery
import PushReceiver.Library.Receipts
import PushReceiver.PersistentIdFile
import PushReceiver.Poison

set_option autoImplicit false

namespace PushReceiver

def stanzaId (env : Environment) (body : Bytes) : Bytes :=
  match env.parseDataMessageStanza body with
  | none => []
  | some stanza => stanza.persistentId

-- An id that the file and the LoginRequest carry unchanged.
def Storable (id : Bytes) : Prop := id ≠ [] ∧ ¬ Separates id ∧ 0 ∉ id

-- A stanza that is shown when it is handled.
def Decrypts (env : Environment) (body : Bytes) : Prop :=
  ∃ stanza call, env.parseDataMessageStanza body = some stanza ∧ passedToDecrypt env stanza = some call ∧
    (env.decrypt call).1 = eceOk

-- What comes of a write of the file: the whole list, nothing where the file does not open, or the
-- first bytes of the list where the disk is full or the process ends in the middle of it.
inductive Save where
  | whole
  | refused
  | cut (kept : Nat)
deriving DecidableEq, Repr

def Save.file (save : Save) (persistentIds : Bytes) (file : Option Bytes) : Option Bytes :=
  match save with
  | .whole => (writePersistentIdToFile true persistentIds file).2
  | .refused => (writePersistentIdToFile false persistentIds file).2
  | .cut kept => some (persistentIds.take kept)

-- wmain's callback for "persistent_id".
def fileAfter (save : Save) (file : Option Bytes) (events : List Event) : Option Bytes :=
  events.foldl (fun file event => if event.name = "persistent_id" then save.file event.message file else file) file

def newEvents (app next : App) : List Event := next.emitted.drop app.emitted.length

-- One entry for each event of this name that the handling of `body` has emitted.
def emittedFor (body : Bytes) (name : String) (events : List Event) : List Bytes :=
  (events.filter (·.name = name)).map fun _ => body

-- A process that listens, and what the server is going to send it.
structure Listening where
  app : App
  greeted : Bool
  unsent : List Bytes

-- The server, the file and the listening process, if there is one. The server holds a stanza until
-- a LoginRequest carries its id. What was posted, recorded, cut off and shown is ghost state.
structure Restarts where
  held : List Bytes
  file : Option Bytes
  process : Option Listening
  posted : List Bytes
  recorded : List Bytes
  cut : List Bytes
  shown : List Bytes

inductive RestartEvent where
  | posts (body : Bytes)
  | starts
  | greets (bytes : Bytes)
  | delivers (save : Save)
  | throws
  | receives (frame : UInt8 × Bytes)
  | dies (save : Save)
  | stops
deriving DecidableEq, Repr

-- The server may answer a login at any time, and again. A process may end at any point: between
-- two frames, and in the middle of a stanza, in or behind the write of its id and before it is shown.
inductive RestartStep (env : Environment) : Restarts → RestartEvent → Restarts → Prop where
  | posts (state : Restarts) (body : Bytes) (storable : Storable (stanzaId env body))
      (fresh : stanzaId env body ∉ state.posted.map (stanzaId env)) :
      RestartStep env state (.posts body) { state with
        posted := state.posted ++ [body], held := state.held ++ [body]
        process := state.process.map fun process => { process with unsent := process.unsent ++ [body] } }
  | starts (state : Restarts) (connection : Connection) (client : FcmClient) (request : LoginRequest)
      (stopped : state.process = none)
      (loaded : client.receiver.app = .loaded (loadPersistentId state.file []).2)
      (requested : loginRequest client = .ok request)
      (sent : (connectToServer connection client).written.accepted = loginBuffer (connection.serialize request)) :
      RestartStep env state .starts { state with
        held := state.held.filter (stanzaId env · ∉ request.receivedPersistentId)
        process := some ⟨(connectToServer connection client).client.receiver.app, false,
          state.held.filter (stanzaId env · ∉ request.receivedPersistentId)⟩ }
  | greets (state : Restarts) (app next : App) (greeted : Bool) (unsent : List Bytes) (bytes : Bytes)
      (running : state.process = some ⟨app, greeted, unsent⟩)
      (handled : env.handlers.handle loginResponseTag bytes app = .returns next) :
      RestartStep env state (.greets bytes) { state with
        file := fileAfter .whole state.file (newEvents app next), process := some ⟨next, true, unsent⟩ }
  | delivers (state : Restarts) (app next : App) (greeted : Bool) (body : Bytes) (later : List Bytes) (save : Save)
      (running : state.process = some ⟨app, greeted, body :: later⟩)
      (handled : env.handlers.handle dataMessageStanzaTag body app = .returns next) :
      RestartStep env state (.delivers save) { state with
        file := fileAfter save state.file (newEvents app next), process := some ⟨next, greeted, later⟩
        recorded := state.recorded ++ emittedFor body "persistent_id" (newEvents app next)
        shown := state.shown ++ emittedFor body "message" (newEvents app next) }
  | throws (state : Restarts) (app left : App) (greeted : Bool) (body : Bytes) (later : List Bytes) (exception : Exception)
      (running : state.process = some ⟨app, greeted, body :: later⟩)
      (handled : env.handlers.handle dataMessageStanzaTag body app = .throws exception left) :
      RestartStep env state .throws { state with process := none }
  | receives (state : Restarts) (process : Listening) (next : App) (frame : UInt8 × Bytes)
      (running : state.process = some process) (notLogin : frame.1 ≠ loginResponseTag)
      (notStanza : frame.1 ≠ dataMessageStanzaTag)
      (handled : env.handlers.handle frame.1 frame.2 process.app = .returns next) :
      RestartStep env state (.receives frame) { state with
        file := fileAfter .whole state.file (newEvents process.app next), process := some { process with app := next } }
  | dies (state : Restarts) (app : App) (greeted : Bool) (body : Bytes) (later : List Bytes) (salt rawSenderPubKey : Bytes)
      (stanza : DataMessageStanza) (save : Save) (running : state.process = some ⟨app, greeted, body :: later⟩)
      (parsed : env.parseDataMessageStanza body = some stanza)
      (scanned : scanAppData stanza.appData [] [] = .accepts salt rawSenderPubKey) :
      RestartStep env state (.dies save) { state with
        file := fileAfter save state.file (newEvents app (app.recordPersistentId stanza.persistentId)), process := none
        recorded := state.recorded ++
          emittedFor body "persistent_id" (newEvents app (app.recordPersistentId stanza.persistentId))
        cut := state.cut ++ [body] }
  | stops (state : Restarts) : RestartStep env state .stops { state with process := none }

-- The server answers a login once and before it sends a stanza, the id of every stanza reaches the
-- file, and no stanza that is handled to its end makes the decryption leave its buffer.
def Orderly (env : Environment) (state : Restarts) : RestartEvent → Prop
  | .greets _ => ∀ process, state.process = some process → process.greeted = false
  | .delivers save => save = .whole ∧ ∀ process, state.process = some process →
      process.greeted = true ∧ ∀ body, process.unsent.head? = some body → FitsBuffer env body
  | .dies save => save = .whole ∧ ∀ process, state.process = some process → process.greeted = true
  | _ => True

def restarts (env : Environment) : Transition.System Restarts RestartEvent where
  initial := fun state => state = ⟨[], none, none, [], [], [], []⟩
  step := RestartStep env

-- The ids that a process started with this file puts into its LoginRequest.
def fileIds (file : Option Bytes) : List Bytes := ((loadPersistentId file []).2.filter (· ≠ [])).map cStr

theorem file_ids_join (ids : List Bytes) (storable : ∀ id ∈ ids, Storable id) : fileIds (some (join ids (ascii ";"))) = ids := by
  have kept := loaded_ids ids (fun id member => (storable id member).1) fun id member => (storable id member).2.1
  rw [fileIds, loadPersistentId]
  dsimp only
  rw [kept]
  exact (map_c_str_whole ids).mpr fun id member => (storable id member).2.2

-- The state of the system, seen as the mailbox of the ids.
structure RepresentsMailbox (env : Environment) (state : Restarts) (box : Receipts.Mailbox Bytes) : Prop where
  posted : box.posted = state.posted.map (stanzaId env)
  held : box.held = state.held.map (stanzaId env)
  taken : box.taken = state.recorded.map (stanzaId env)
  receipts : box.receipts = fileIds state.file
  storable : ∀ body ∈ state.posted, Storable (stanzaId env body)
  known : ∀ body, body ∈ state.held ∨ body ∈ state.recorded → body ∈ state.posted
  sending : ∀ process, state.process = some process →
    box.unsent = process.unsent.map (stanzaId env) ∧ ∀ body ∈ process.unsent, body ∈ state.posted
  greeted : ∀ process, state.process = some process → process.greeted = true →
    box.session = process.app.persistentIds ∧ ∀ id ∈ process.app.persistentIds, Storable id
  waiting : ∀ process, state.process = some process → process.greeted = false → box.session = []
  once : state.shown.Sublist state.recorded
  accounted : ∀ body ∈ state.recorded, body ∈ state.shown ∨ body ∈ state.cut ∨ ¬ Decrypts env body

theorem new_events (app next : App) (events : List Event) (emitted : next.emitted = app.emitted ++ events) :
    newEvents app next = events := by
  rw [newEvents, emitted, List.drop_left]

theorem recorded_app (app : App) (id : Bytes) (present : id ≠ []) :
    (app.recordPersistentId id).persistentIds = app.persistentIds ++ [id] ∧
      (app.recordPersistentId id).emitted =
        app.emitted ++ [⟨"persistent_id", join (app.persistentIds ++ [id]) (ascii ";")⟩] := by
  rw [App.recordPersistentId, if_neg present]
  exact ⟨rfl, rfl⟩

theorem delivered_app (env : Environment) (call : Option DecryptCall) (app : App) :
    (deliverMessage env call app).persistentIds = app.persistentIds ∧
      ((∃ accepted plaintext, call = some accepted ∧ (env.decrypt accepted).1 = eceOk ∧
          (deliverMessage env call app).emitted = app.emitted ++ [⟨"message", plaintext⟩]) ∨
        (¬ ∃ accepted, call = some accepted ∧ (env.decrypt accepted).1 = eceOk) ∧
          (deliverMessage env call app).emitted = app.emitted) := by
  unfold deliverMessage
  cases call with
  | none => exact ⟨rfl, .inr ⟨by simp, rfl⟩⟩
  | some accepted =>
      dsimp only
      split
      · rename_i succeeded
        exact ⟨rfl, .inl ⟨accepted, _, rfl, succeeded, rfl⟩⟩
      · rename_i failed
        exact ⟨rfl, .inr ⟨by simpa using failed, rfl⟩⟩

-- What a stanza does to the process, and to the file: nothing, or its id is recorded, and then it
-- is shown if it can be decrypted.
theorem stanza_handled (env : Environment) (body : Bytes) (app next : App) (stanza : DataMessageStanza)
    (parsed : env.parseDataMessageStanza body = some stanza) (present : stanza.persistentId ≠ [])
    (handled : env.handlers.handle dataMessageStanzaTag body app = .returns next) :
    next = app ∨
      next.persistentIds = app.persistentIds ++ [stanza.persistentId] ∧
        ((Decrypts env body ∧ ∃ plaintext, newEvents app next =
            [⟨"persistent_id", join (app.persistentIds ++ [stanza.persistentId]) (ascii ";")⟩, ⟨"message", plaintext⟩]) ∨
          ¬ Decrypts env body ∧
            newEvents app next = [⟨"persistent_id", join (app.persistentIds ++ [stanza.persistentId]) (ascii ";")⟩]) := by
  rw [handle_stanza env (dataMessageStanzaTag, body) app rfl] at handled
  cases scanned : scanAppData stanza.appData [] [] with
  | throws exception =>
      simp only [handleDataMessageStanzaTag, parsed, scanned] at handled
      cases handled
  | rejects =>
      simp only [handleDataMessageStanzaTag, parsed, scanned] at handled
      cases handled
      exact .inl rfl
  | accepts salt rawSenderPubKey =>
      rw [handle_passes env body app stanza salt rawSenderPubKey parsed scanned] at handled
      cases handled
      obtain ⟨ids, emitted⟩ := recorded_app app stanza.persistentId present
      obtain ⟨kept, shows⟩ := delivered_app env (passedToDecrypt env stanza) (app.recordPersistentId stanza.persistentId)
      refine .inr ⟨by rw [kept, ids], ?_⟩
      rcases shows with ⟨call, plaintext, passed, succeeded, events⟩ | ⟨failed, events⟩
      · refine .inl ⟨⟨stanza, call, parsed, passed, succeeded⟩, plaintext, new_events app _ _ ?_⟩
        rw [events, emitted, List.append_assoc]
        rfl
      · refine .inr ⟨?_, new_events app _ _ (by rw [events, emitted])⟩
        rintro ⟨other, call, same, passed, succeeded⟩
        rw [parsed] at same
        cases same
        exact failed ⟨call, passed, succeeded⟩

theorem storable_parsed (env : Environment) (body : Bytes) (storable : Storable (stanzaId env body)) :
    ∃ stanza, env.parseDataMessageStanza body = some stanza ∧ stanza.persistentId = stanzaId env body := by
  cases parsed : env.parseDataMessageStanza body with
  | none =>
      rw [stanzaId, parsed] at storable
      exact absurd rfl storable.1
  | some stanza => exact ⟨stanza, rfl, by rw [stanzaId, parsed]⟩

-- The other frames and the LoginResponse emit no event.
theorem other_silent (env : Environment) (frame : UInt8 × Bytes) (app next : App) (notLogin : frame.1 ≠ loginResponseTag)
    (notStanza : frame.1 ≠ dataMessageStanzaTag) (handled : env.handlers.handle frame.1 frame.2 app = .returns next) :
    next.persistentIds = app.persistentIds ∧ newEvents app next = [] := by
  obtain ⟨after, same, ids, emitted⟩ := handle_other env frame app notLogin notStanza
  rw [handled] at same
  cases same
  exact ⟨ids, new_events app next [] (by rw [emitted, List.append_nil])⟩

theorem login_silent (env : Environment) (bytes : Bytes) (app next : App)
    (handled : env.handlers.handle loginResponseTag bytes app = .returns next) :
    next.persistentIds = [] ∧ newEvents app next = [] := by
  rw [handle_login env (loginResponseTag, bytes) app rfl, handleLoginResponseTag] at handled
  split at handled
  · cases handled
  · cases handled
    exact ⟨rfl, new_events app _ [] (List.append_nil _).symm⟩

theorem file_recorded (file : Option Bytes) (ids message : Bytes) :
    fileAfter .whole file [⟨"persistent_id", ids⟩] = some ids ∧
      fileAfter .whole file [⟨"persistent_id", ids⟩, ⟨"message", message⟩] = some ids := by
  simp [fileAfter, Save.file, writePersistentIdToFile]

theorem posts_represents (env : Environment) (state : Restarts) (box : Receipts.Mailbox Bytes) (body : Bytes)
    (storable : Storable (stanzaId env body)) (represents : RepresentsMailbox env state box) :
    RepresentsMailbox env
      { state with
        posted := state.posted ++ [body], held := state.held ++ [body]
        process := state.process.map fun process => { process with unsent := process.unsent ++ [body] } }
      { box with
        posted := box.posted ++ [stanzaId env body], held := box.held ++ [stanzaId env body]
        unsent := box.unsent ++ [stanzaId env body] } := by
  obtain ⟨posted, held, taken, receipts, allStorable, known, sending, greeted, waiting, once, accounted⟩ := represents
  constructor
  · simp [posted]
  · simp [held]
  · exact taken
  · exact receipts
  · intro other member
    rcases List.mem_append.mp member with earlier | last
    · exact allStorable other earlier
    · rw [List.mem_singleton.mp last]
      exact storable
  · rintro other (member | member)
    · rcases List.mem_append.mp member with earlier | last
      · exact List.mem_append_left _ (known other (.inl earlier))
      · exact List.mem_append_right _ last
    · exact List.mem_append_left _ (known other (.inr member))
  · intro process running
    obtain ⟨before, same, rfl⟩ := Option.map_eq_some_iff.mp running
    obtain ⟨unsent, fromPosted⟩ := sending before same
    refine ⟨by simp [unsent], fun other member => ?_⟩
    rcases List.mem_append.mp member with earlier | last
    · exact List.mem_append_left _ (fromPosted other earlier)
    · exact List.mem_append_right _ last
  · intro process running isGreeted
    obtain ⟨before, same, rfl⟩ := Option.map_eq_some_iff.mp running
    exact greeted before same isGreeted
  · intro process running unGreeted
    obtain ⟨before, same, rfl⟩ := Option.map_eq_some_iff.mp running
    exact waiting before same unGreeted
  · exact once
  · exact accounted

-- The ids of a LoginRequest are those of the file the process was started with.
theorem starts_represents (env : Environment) (state : Restarts) (box : Receipts.Mailbox Bytes) (app : App)
    (represents : RepresentsMailbox env state box) :
    RepresentsMailbox env
      { state with
        held := state.held.filter (stanzaId env · ∉ fileIds state.file)
        process := some ⟨app, false, state.held.filter (stanzaId env · ∉ fileIds state.file)⟩ }
      { box with held := box.unconfirmed, unsent := box.unconfirmed, session := [] } := by
  obtain ⟨posted, held, taken, receipts, allStorable, known, sending, greeted, waiting, once, accounted⟩ := represents
  have left : box.unconfirmed = (state.held.filter (stanzaId env · ∉ fileIds state.file)).map (stanzaId env) := by
    rw [Receipts.Mailbox.unconfirmed, held, receipts, List.filter_map]
    congr 1
    exact List.filter_congr fun body _ => by simp
  have within : ∀ body ∈ state.held.filter (stanzaId env · ∉ fileIds state.file), body ∈ state.posted :=
    fun body member => known body (.inl (List.mem_of_mem_filter member))
  constructor
  · exact posted
  · exact left
  · exact taken
  · exact receipts
  · exact allStorable
  · rintro body (member | member)
    · exact within body member
    · exact known body (.inr member)
  · intro process running
    obtain rfl := Option.some.inj running
    exact ⟨left, within⟩
  · intro process running isGreeted
    obtain rfl := Option.some.inj running
    cases isGreeted
  · exact fun _ _ _ => rfl
  · exact once
  · exact accounted

-- A process that has recorded an id, whether it goes on or not.
theorem takes_represents (env : Environment) (state : Restarts) (box : Receipts.Mailbox Bytes) (app : App) (body : Bytes)
    (later : List Bytes) (running : state.process = some ⟨app, true, body :: later⟩) (represents : RepresentsMailbox env state box)
    (process : Option Listening) (goesOn : ∀ after, process = some after → after.greeted = true ∧ after.unsent = later ∧
      after.app.persistentIds = app.persistentIds ++ [stanzaId env body])
    (cut shown : List Bytes) (once : shown.Sublist [body]) (accounted : body ∈ shown ∨ body ∈ cut ∨ ¬ Decrypts env body) :
    RepresentsMailbox env
      { state with
        file := some (join (app.persistentIds ++ [stanzaId env body]) (ascii ";")), process := process
        recorded := state.recorded ++ [body], cut := state.cut ++ cut, shown := state.shown ++ shown }
      { box with
        unsent := later.map (stanzaId env), session := box.session ++ [stanzaId env body]
        receipts := box.session ++ [stanzaId env body], taken := box.taken ++ [stanzaId env body] } := by
  obtain ⟨posted, held, taken, receipts, allStorable, known, sending, greeted, waiting, before, counted⟩ := represents
  obtain ⟨unsent, fromPosted⟩ := sending _ running
  obtain ⟨fromHere, fromLater⟩ := List.forall_mem_cons.mp fromPosted
  obtain ⟨session, sessionStorable⟩ := greeted _ running rfl
  dsimp only at session sessionStorable
  have nextStorable : ∀ id ∈ app.persistentIds ++ [stanzaId env body], Storable id := by
    intro id member
    rcases List.mem_append.mp member with earlier | last
    · exact sessionStorable id earlier
    · rw [List.mem_singleton.mp last]
      exact allStorable body fromHere
  constructor
  · exact posted
  · exact held
  · simp [taken]
  · rw [file_ids_join _ nextStorable, session]
  · exact allStorable
  · rintro other (member | member)
    · exact known other (.inl member)
    · rcases List.mem_append.mp member with earlier | last
      · exact known other (.inr earlier)
      · rw [List.mem_singleton.mp last]
        exact fromHere
  · intro after isAfter
    obtain ⟨_, rest, _⟩ := goesOn after isAfter
    rw [rest]
    exact ⟨rfl, fromLater⟩
  · intro after isAfter _
    obtain ⟨_, _, ids⟩ := goesOn after isAfter
    rw [ids, session]
    exact ⟨rfl, nextStorable⟩
  · intro after isAfter unGreeted
    rw [(goesOn after isAfter).1] at unGreeted
    cases unGreeted
  · exact before.append once
  · intro other member
    rcases List.mem_append.mp member with earlier | last
    · exact (counted other earlier).imp (List.mem_append_left _) (.imp (List.mem_append_left _) id)
    · rw [List.mem_singleton.mp last]
      exact accounted.imp (List.mem_append_right _) (.imp (List.mem_append_right _) id)

-- The process ends, or goes on with the same ids.
theorem process_represents (env : Environment) (state : Restarts) (box : Receipts.Mailbox Bytes)
    (represents : RepresentsMailbox env state box) (process : Option Listening)
    (goesOn : ∀ after, process = some after → ∃ before, state.process = some before ∧ after.unsent = before.unsent ∧
      ((after.greeted = before.greeted ∧ after.app.persistentIds = before.app.persistentIds) ∨
        before.greeted = false ∧ after.greeted = true ∧ after.app.persistentIds = [])) :
    RepresentsMailbox env { state with process := process } box := by
  obtain ⟨posted, held, taken, receipts, allStorable, known, sending, greeted, waiting, once, accounted⟩ := represents
  constructor
  · exact posted
  · exact held
  · exact taken
  · exact receipts
  · exact allStorable
  · exact known
  · intro after isAfter
    obtain ⟨before, running, unsent, _⟩ := goesOn after isAfter
    rw [unsent]
    exact sending before running
  · intro after isAfter isGreeted
    obtain ⟨before, running, _, ⟨same, ids⟩ | ⟨unGreeted, _, ids⟩⟩ := goesOn after isAfter
    · rw [ids]
      exact greeted before running (same ▸ isGreeted)
    · rw [ids, waiting before running unGreeted]
      exact ⟨rfl, by simp⟩
  · intro after isAfter unGreeted
    obtain ⟨before, running, _, ⟨same, _⟩ | ⟨_, isGreeted, _⟩⟩ := goesOn after isAfter
    · exact waiting before running (same ▸ unGreeted)
    · rw [isGreeted] at unGreeted
      cases unGreeted
  · exact once
  · exact accounted

theorem skips_represents (env : Environment) (state : Restarts) (box : Receipts.Mailbox Bytes) (app : App) (body : Bytes)
    (later : List Bytes) (running : state.process = some ⟨app, true, body :: later⟩) (represents : RepresentsMailbox env state box) :
    RepresentsMailbox env { state with process := some ⟨app, true, later⟩ } { box with unsent := later.map (stanzaId env) } := by
  obtain ⟨posted, held, taken, receipts, allStorable, known, sending, greeted, waiting, once, accounted⟩ := represents
  refine ⟨posted, held, taken, receipts, allStorable, known, ?_, ?_, ?_, once, accounted⟩
  · intro after isAfter
    obtain rfl := Option.some.inj isAfter
    exact ⟨rfl, fun other member => (sending _ running).2 other (List.mem_cons_of_mem body member)⟩
  · intro after isAfter _
    obtain rfl := Option.some.inj isAfter
    have session := greeted _ running rfl
    exact session
  · intro after isAfter unGreeted
    obtain rfl := Option.some.inj isAfter
    cases unGreeted

theorem delivers_simulated (env : Environment) (state : Restarts) (box : Receipts.Mailbox Bytes) (app next : App)
    (body : Bytes) (later : List Bytes) (running : state.process = some ⟨app, true, body :: later⟩)
    (handled : env.handlers.handle dataMessageStanzaTag body app = .returns next) (represents : RepresentsMailbox env state box) :
    ∃ event after, Receipts.Step box event after ∧ RepresentsMailbox env
      { state with
        file := fileAfter .whole state.file (newEvents app next), process := some ⟨next, true, later⟩
        recorded := state.recorded ++ emittedFor body "persistent_id" (newEvents app next)
        shown := state.shown ++ emittedFor body "message" (newEvents app next) } after := by
  obtain ⟨unsent, fromPosted⟩ := represents.sending _ running
  have storable := represents.storable body (fromPosted body List.mem_cons_self)
  obtain ⟨stanza, parsed, id⟩ := storable_parsed env body storable
  have first : box.unsent = stanzaId env body :: later.map (stanzaId env) := unsent
  rcases stanza_handled env body app next stanza parsed (id ▸ storable.1) handled with rfl | ⟨ids, shows⟩
  · refine ⟨.skips, _, .skips box _ _ first, ?_⟩
    rw [new_events next next [] (List.append_nil _).symm]
    simpa [fileAfter, emittedFor] using skips_represents env state box next body later running represents
  · rw [id] at ids shows
    refine ⟨.takes, _, .takes box _ _ first, ?_⟩
    have goesOn : ∀ after, some (Listening.mk next true later) = some after → after.greeted = true ∧ after.unsent = later ∧
        after.app.persistentIds = app.persistentIds ++ [stanzaId env body] := by
      rintro after same
      obtain rfl := Option.some.inj same
      exact ⟨rfl, rfl, ids⟩
    have takes := takes_represents env state box app body later running represents (some ⟨next, true, later⟩) goesOn []
    rcases shows with ⟨decrypts, plaintext, events⟩ | ⟨fails, events⟩
    · rw [events, (file_recorded state.file _ plaintext).2]
      simpa [emittedFor] using takes [body] (List.Sublist.refl _) (.inl (List.mem_singleton_self body))
    · rw [events, (file_recorded state.file _ []).1]
      simpa [emittedFor] using takes [] (List.nil_sublist _) (.inr (.inr fails))

theorem dies_simulated (env : Environment) (state : Restarts) (box : Receipts.Mailbox Bytes) (app : App) (body : Bytes)
    (later : List Bytes) (stanza : DataMessageStanza) (running : state.process = some ⟨app, true, body :: later⟩)
    (parsed : env.parseDataMessageStanza body = some stanza) (represents : RepresentsMailbox env state box) :
    ∃ event after, Receipts.Step box event after ∧ RepresentsMailbox env
      { state with
        file := fileAfter .whole state.file (newEvents app (app.recordPersistentId stanza.persistentId)), process := none
        recorded := state.recorded ++
          emittedFor body "persistent_id" (newEvents app (app.recordPersistentId stanza.persistentId))
        cut := state.cut ++ [body] } after := by
  obtain ⟨unsent, fromPosted⟩ := represents.sending _ running
  have storable := represents.storable body (fromPosted body List.mem_cons_self)
  have id : stanza.persistentId = stanzaId env body := by rw [stanzaId, parsed]
  have first : box.unsent = stanzaId env body :: later.map (stanzaId env) := unsent
  refine ⟨.takes, _, .takes box _ _ first, ?_⟩
  rw [id, new_events app _ _ (recorded_app app _ storable.1).2, (file_recorded state.file _ []).1]
  have takes := takes_represents env state box app body later running represents none (fun _ none_ => by cases none_) [body] []
    (List.nil_sublist _) (.inr (.inl (List.mem_singleton_self body)))
  simpa [emittedFor] using takes

theorem restart_simulated (env : Environment) (state : Restarts) (event : RestartEvent) (next : Restarts)
    (box : Receipts.Mailbox Bytes) (represents : RepresentsMailbox env state box) (orderly : Orderly env state event)
    (step : RestartStep env state event next) :
    RepresentsMailbox env next box ∨ ∃ event after, Receipts.Step box event after ∧ RepresentsMailbox env next after := by
  cases step with
  | posts body storable fresh =>
      refine .inr ⟨.posts, _, .posts box (stanzaId env body) ?_, posts_represents env state box body storable represents⟩
      rw [represents.posted]
      exact fresh
  | starts connection client request stopped loaded requested sent =>
      have ids : request.receivedPersistentId = fileIds state.file := by
        rw [sent_ids client request requested, loaded]
        rfl
      rw [ids]
      exact .inr ⟨.opens, _, .opens box, starts_represents env state box _ represents⟩
  | greets app after greeted unsent bytes running handled =>
      obtain ⟨ids, silent⟩ := login_silent env bytes app after handled
      rw [silent]
      refine .inl (process_represents env state box represents _ fun later same => ?_)
      obtain rfl := Option.some.inj same
      exact ⟨_, running, rfl, .inr ⟨orderly _ running, rfl, ids⟩⟩
  | delivers app after greeted body later save running handled =>
      obtain ⟨rfl, sent⟩ := orderly
      obtain rfl : greeted = true := (sent _ running).1
      exact .inr (delivers_simulated env state box app after body later running handled represents)
  | throws app left greeted body later exception running handled =>
      exact .inl (process_represents env state box represents none fun _ none_ => by cases none_)
  | receives process after frame running notLogin notStanza handled =>
      obtain ⟨ids, silent⟩ := other_silent env frame process.app after notLogin notStanza handled
      rw [silent]
      refine .inl (process_represents env state box represents _ fun later same => ?_)
      obtain rfl := Option.some.inj same
      exact ⟨process, running, rfl, .inl ⟨rfl, ids⟩⟩
  | dies app greeted body later salt rawSenderPubKey stanza save running parsed scanned =>
      obtain ⟨rfl, sent⟩ := orderly
      obtain rfl : greeted = true := sent _ running
      exact .inr (dies_simulated env state box app body later stanza running parsed represents)
  | stops => exact .inl (process_represents env state box represents none fun _ none_ => by cases none_)

-- Over any number of orderly restarts no message is shown twice, and none is lost that can be
-- decrypted, but those whose process ended between the file and the message.
theorem shown_once (env : Environment) (trace : List (Restarts × RestartEvent)) (state : Restarts)
    (run : Transition.Run (restarts env) trace state) (orderly : ∀ taken ∈ trace, Orderly env taken.1 taken.2) :
    (state.shown.map (stanzaId env)).Nodup ∧
      ∀ body ∈ state.posted, body ∈ state.held ∨ body ∈ state.shown ∨ body ∈ state.cut ∨ ¬ Decrypts env body := by
  have initial : ∀ state, (restarts env).initial state →
      ∃ box, (Receipts.mailbox (A := Bytes)).initial box ∧ RepresentsMailbox env state box := by
    rintro state rfl
    refine ⟨Receipts.empty, rfl, ?_⟩
    constructor <;> simp [Receipts.empty, fileIds, loadPersistentId]
  obtain ⟨events, box, abstract, represents⟩ := Transition.run_simulates_while (restarts env) Receipts.mailbox
    (RepresentsMailbox env) (Orderly env) initial
    (fun state event next box represents => restart_simulated env state event next box represents) trace state run orderly
  have consistent := Receipts.run_consistent events box abstract
  have once := consistent.once
  rw [represents.taken] at once
  refine ⟨(represents.once.map (stanzaId env)).nodup once, fun body posted => ?_⟩
  have dropped := consistent.dropped (stanzaId env body) (by rw [represents.posted]; exact List.mem_map_of_mem posted)
  have addressed := consistent.fresh
  rw [represents.posted] at addressed
  rw [represents.held, represents.taken] at dropped
  rcases dropped with held | taken
  · obtain ⟨other, member, same⟩ := List.mem_map.mp held
    rw [← List.inj_on_of_nodup_map addressed (represents.known other (.inl member)) posted same]
    exact .inl member
  · obtain ⟨other, member, same⟩ := List.mem_map.mp taken
    rw [← List.inj_on_of_nodup_map addressed (represents.known other (.inr member)) posted same]
    exact .inr (represents.accounted other member)

def restartEnvironment : Environment :=
  { helloEnvironment with parseLoginResponse := fun bytes => if bytes = loginBytes then some ⟨0⟩ else none }

def acceptingConnection : Connection := ⟨true, fun _ => 1000, fun _ => loginSerialized⟩

def connectedApp (ids : List Bytes) : App :=
  (App.loaded ids).emit "connected" (ascii "[CFCMClient][INFO] Connected to server")

-- A process can always be started, and asks for what its file does not name.
theorem process_starts (env : Environment) (state : Restarts) (stopped : state.process = none) :
    RestartStep env state .starts { state with
      held := state.held.filter (stanzaId env · ∉ fileIds state.file)
      process := some ⟨connectedApp (loadPersistentId state.file []).2, false,
        state.held.filter (stanzaId env · ∉ fileIds state.file)⟩ } := by
  let client : FcmClient := { loginClient with receiver := .fresh (.loaded (loadPersistentId state.file []).2) }
  have read : client.loginIds = some (7, 8) := by
    change loginClient.loginIds = some (7, 8)
    decide +kernel
  obtain ⟨request, requested⟩ := login_request_made client (7, 8) read
  have ids : request.receivedPersistentId = fileIds state.file := sent_ids client request requested
  have written := (connect_outcome acceptingConnection client (7, 8) request read requested rfl).2
  have accepts : Accepts acceptingConnection.sslWrite (loginBuffer loginSerialized).length := by
    refine ⟨by decide +kernel, fun call _ => ?_⟩
    change (0 : Int) < 1000
    decide
  have sends := (send_all_iff acceptingConnection.sslWrite (loginBuffer loginSerialized) (List.cons_ne_nil _ _)).mpr accepts
  have complete := (send_fully_written acceptingConnection.sslWrite (loginBuffer loginSerialized) 0 .nothing).1 sends
  have app : (connectToServer acceptingConnection client).client.receiver.app = connectedApp (loadPersistentId state.file []).2 := by
    have sent := login_buffer_sent acceptingConnection { client with
      receiver.app := client.receiver.app.emit "connected" (ascii "[CFCMClient][INFO] Connected to server") } request requested
    simp only [connectToServer, read, acceptingConnection, if_true] at sent ⊢
    rw [sent]
    rfl
  rw [← ids, ← app]
  refine .starts state acceptingConnection client request stopped rfl requested ?_
  rw [written]
  exact complete

def helloStanzaBytes : Bytes := ascii "hello stanza"

def greetedApp : App := { connectedApp [] with sentHeartbeats := [0] }

def shownApp : App :=
  { greetedApp with
    persistentIds := [ascii "0:1"]
    emitted := (connectedApp []).emitted ++ [⟨"persistent_id", ascii "0:1"⟩, ⟨"message", ascii "hello"⟩] }

-- A message is shown, and the process that is started next does not ask for it again.
theorem shown_once_hello :
    ∃ trace app, Transition.Run (restarts restartEnvironment) trace
        ⟨[], some (ascii "0:1"), some ⟨app, false, []⟩, [helloStanzaBytes], [helloStanzaBytes], [], [helloStanzaBytes]⟩ ∧
      ([helloStanzaBytes].map (stanzaId restartEnvironment)).Nodup ∧
      ∀ body ∈ [helloStanzaBytes], body ∈ ([] : List Bytes) ∨ body ∈ [helloStanzaBytes] ∨ body ∈ ([] : List Bytes) ∨
        ¬ Decrypts restartEnvironment body := by
  have id : stanzaId restartEnvironment helloStanzaBytes = ascii "0:1" := by decide +kernel
  have storable : Storable (ascii "0:1") := ⟨by decide, by decide, by decide⟩
  have posted : RestartStep restartEnvironment ⟨[], none, none, [], [], [], []⟩ (.posts helloStanzaBytes)
      ⟨[helloStanzaBytes], none, none, [helloStanzaBytes], [], [], []⟩ :=
    .posts _ helloStanzaBytes (id ▸ storable) List.not_mem_nil
  have started : RestartStep restartEnvironment ⟨[helloStanzaBytes], none, none, [helloStanzaBytes], [], [], []⟩ .starts
      ⟨[helloStanzaBytes], none, some ⟨connectedApp [], false, [helloStanzaBytes]⟩, [helloStanzaBytes], [], [], []⟩ :=
    process_starts restartEnvironment _ rfl
  have greeted : RestartStep restartEnvironment
      ⟨[helloStanzaBytes], none, some ⟨connectedApp [], false, [helloStanzaBytes]⟩, [helloStanzaBytes], [], [], []⟩
      (.greets loginBytes)
      ⟨[helloStanzaBytes], none, some ⟨greetedApp, true, [helloStanzaBytes]⟩, [helloStanzaBytes], [], [], []⟩ :=
    .greets _ (connectedApp []) greetedApp false [helloStanzaBytes] loginBytes rfl (by decide +kernel)
  have delivered : RestartStep restartEnvironment
      ⟨[helloStanzaBytes], none, some ⟨greetedApp, true, [helloStanzaBytes]⟩, [helloStanzaBytes], [], [], []⟩ (.delivers .whole)
      ⟨[helloStanzaBytes], some (ascii "0:1"), some ⟨shownApp, true, []⟩, [helloStanzaBytes], [helloStanzaBytes], [],
        [helloStanzaBytes]⟩ :=
    .delivers _ greetedApp shownApp true helloStanzaBytes [] .whole rfl (by decide +kernel)
  have stopped : RestartStep restartEnvironment
      ⟨[helloStanzaBytes], some (ascii "0:1"), some ⟨shownApp, true, []⟩, [helloStanzaBytes], [helloStanzaBytes], [],
        [helloStanzaBytes]⟩ .stops
      ⟨[helloStanzaBytes], some (ascii "0:1"), none, [helloStanzaBytes], [helloStanzaBytes], [], [helloStanzaBytes]⟩ :=
    .stops _
  have ids : fileIds (some (ascii "0:1")) = [ascii "0:1"] :=
    file_ids_join [ascii "0:1"] (List.forall_mem_singleton.mpr storable)
  have again := process_starts restartEnvironment
    ⟨[helloStanzaBytes], some (ascii "0:1"), none, [helloStanzaBytes], [helloStanzaBytes], [], [helloStanzaBytes]⟩ rfl
  simp only [ids, List.filter_cons, id, List.mem_singleton, not_true_eq_false, decide_false, List.filter_nil] at again
  have opened : Transition.Run (restarts restartEnvironment) [] ⟨[], none, none, [], [], [], []⟩ := .start _ rfl
  have shown := Transition.Run.step _ _ _ _ (.step _ _ _ _ (.step _ _ _ _ (.step _ _ _ _ opened posted) started) greeted)
    delivered
  have run := Transition.Run.step _ _ _ _ (.step _ _ _ _ shown stopped) again
  have fits : FitsBuffer restartEnvironment helloStanzaBytes := by
    intro stanza parsed _
    obtain rfl : helloStanza = stanza := Option.some.inj parsed
    exact .inl (by decide +kernel)
  refine ⟨_, _, run, shown_once restartEnvironment _ _ run ?_⟩
  simp [Orderly, fits]

end PushReceiver
