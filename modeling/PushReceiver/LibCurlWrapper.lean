import PushReceiver.Library.Handles
import PushReceiver.Library.Transition
import PushReceiver.Login
import PushReceiver.Register

set_option autoImplicit false

namespace PushReceiver

-- What curl_easy_perform puts on the network.
structure CurlRequest where
  isPost : Bool
  url : Bytes
  headers : List Bytes
  body : Bytes
deriving DecidableEq, Repr

-- What comes of it: the pieces that WriteCallback is given, and the CURLcode.
structure Transfer where
  chunks : List Bytes
  res : Nat
deriving DecidableEq, Repr

-- The easy handles and the header lists of a process. A list is one object with its strings.
structure CurlHost where
  easies : Handles.Table
  lists : Handles.Table
  strings : Nat → List Bytes

def curleOk : Nat := 0

def CurlHost.fresh : CurlHost := ⟨Handles.empty, Handles.empty, fun _ => []⟩

-- curl_easy_setopt on the options of an easy handle, and what curl_easy_perform takes from them.
structure CurlEasy (Options : Type) where
  init : Options
  setUrl : Bytes → Options → Options
  setHttpHeader : Option Nat → Options → Options
  setPost : Bool → Options → Options
  setPostFields : Bytes → Options → Options
  setPostFieldSize : Int → Options → Options
  url : Options → Bytes
  httpHeader : Options → Option Nat
  isPost : Options → Bool
  body : Options → Bytes

variable {Options : Type}

-- What libcurl documents of them. Of the header list a handle has the address only.
structure CurlEasy.Documented (easy : CurlEasy Options) : Prop where
  noHeader : easy.httpHeader easy.init = none
  header : ∀ list options, easy.httpHeader (easy.setHttpHeader list options) = list
  urlHeader : ∀ url options, easy.httpHeader (easy.setUrl url options) = easy.httpHeader options
  postHeader : ∀ isPost options, easy.httpHeader (easy.setPost isPost options) = easy.httpHeader options
  fieldsHeader : ∀ postData options, easy.httpHeader (easy.setPostFields postData options) = easy.httpHeader options
  sizeHeader : ∀ size options, easy.httpHeader (easy.setPostFieldSize size options) = easy.httpHeader options
  url : ∀ url options, easy.url (easy.setUrl url options) = url
  postUrl : ∀ isPost options, easy.url (easy.setPost isPost options) = easy.url options
  fieldsUrl : ∀ postData options, easy.url (easy.setPostFields postData options) = easy.url options
  sizeUrl : ∀ size options, easy.url (easy.setPostFieldSize size options) = easy.url options
  post : ∀ isPost options, easy.isPost (easy.setPost isPost options) = isPost
  fieldsPost : ∀ postData options, easy.isPost (easy.setPostFields postData options) = easy.isPost options
  sizePost : ∀ size options, easy.isPost (easy.setPostFieldSize size options) = easy.isPost options
  getBody : ∀ options, easy.isPost options = false → easy.body options = []
  postBody : ∀ postData size options, 0 ≤ size → size ≤ (postData.length : Int) → easy.isPost options = true →
    easy.body (easy.setPostFieldSize size (easy.setPostFields postData options)) = postData.take size.toNat

-- CLibCurlWrapper, with the options of its easy handle.
structure LibCurlWrapper (Options : Type) where
  curl : Option Nat
  curlHeaders : Option Nat
  options : Options
  error : Bytes
deriving DecidableEq, Repr

-- Whether curl_easy_init finds memory.
def constructLibCurl (easy : CurlEasy Options) (initialised : Bool) (host : CurlHost) : LibCurlWrapper Options × CurlHost :=
  if initialised then
    let (curl, easies) := host.easies.allocate
    (⟨some curl, none, easy.init, []⟩, { host with easies })
  else (⟨none, none, easy.init, []⟩, host)

-- The destructor leaves the headers alone. None is the use of an object that is gone, here and below.
def LibCurlWrapper.destroy (wrapper : LibCurlWrapper Options) (host : CurlHost) : Option CurlHost :=
  match wrapper.curl with
  | none => some host
  | some curl => (host.easies.release curl).map fun easies => { host with easies }

def CurlHost.curlSlistFreeAll (host : CurlHost) : Option Nat → Option CurlHost
  | none => some host
  | some list => (host.lists.release list).map fun lists => { host with lists }

-- curl_slist_append, with its memory or without. Without it the result is null and the list stays.
def CurlHost.curlSlistAppend (host : CurlHost) (list : Option Nat) (header : Bytes) (allocated : Bool) :
    Option (Option Nat × CurlHost) :=
  if allocated = false then some (none, host)
  else
    match list with
    | none =>
        let (list, lists) := host.lists.allocate
        some (some list, { host with lists, strings := Function.update host.strings list [cStr header] })
    | some list =>
        if list ∈ host.lists.references then
          some (some list, { host with strings := Function.update host.strings list (host.strings list ++ [cStr header]) })
        else none

-- The loop of SetHeaders; with each header, whether its append finds memory.
def CurlHost.appendHeaders (host : CurlHost) : Option Nat → List (Bytes × Bool) → Option (Option Nat × CurlHost)
  | curlHeaders, [] => some (curlHeaders, host)
  | curlHeaders, (header, allocated) :: rest =>
      match host.curlSlistAppend curlHeaders header allocated with
      | none => none
      | some (curlHeaders, host) => host.appendHeaders curlHeaders rest

-- curl_easy_setopt with the list, which does nothing without an easy handle.
def LibCurlWrapper.useHeaders (easy : CurlEasy Options) (wrapper : LibCurlWrapper Options) (curlHeaders : Option Nat) :
    LibCurlWrapper Options :=
  let options := if wrapper.curl.isSome then easy.setHttpHeader curlHeaders wrapper.options else wrapper.options
  { wrapper with curlHeaders, options }

def LibCurlWrapper.setHeaders (easy : CurlEasy Options) (wrapper : LibCurlWrapper Options) (headers : List (Bytes × Bool))
    (host : CurlHost) : Option (LibCurlWrapper Options × CurlHost) := do
  let host ← host.curlSlistFreeAll wrapper.curlHeaders
  let (curlHeaders, host) ← host.appendHeaders none headers
  return (wrapper.useHeaders easy curlHeaders, host)

-- The options that PerformRequest sets. The size goes through a long of 32 bits.
def CurlEasy.prepare (easy : CurlEasy Options) (isPost : Bool) (url postData : Bytes) (options : Options) : Options :=
  let options := easy.setUrl (cStr url) options
  if isPost then easy.setPostFieldSize (toInt postData.length) (easy.setPostFields postData (easy.setPost true options))
  else easy.setPost false options

def CurlHost.headerStrings (host : CurlHost) : Option Nat → Option (List Bytes)
  | none => some []
  | some list => if list ∈ host.lists.references then some (host.strings list) else none

structure Performed (Options : Type) where
  returned : Bool
  request : Option CurlRequest
  response : Bytes
  wrapper : LibCurlWrapper Options
deriving DecidableEq, Repr

-- CLibCurlWrapper::PerformRequest. `response` is what stands in the caller's string before.
def LibCurlWrapper.performRequest (easy : CurlEasy Options) (strerror : Nat → Bytes) (wrapper : LibCurlWrapper Options)
    (isPost : Bool) (url postData response : Bytes) (transfer : Transfer) (host : CurlHost) : Option (Performed Options) :=
  match wrapper.curl with
  | none => some ⟨false, none, response, { wrapper with error := ascii "Error: CURL handle is not initialized." }⟩
  | some curl =>
      let options := easy.prepare isPost url postData wrapper.options
      if curl ∉ host.easies.references then none
      else
        match host.headerStrings (easy.httpHeader options) with
        | none => none
        | some headers =>
            let request : CurlRequest := ⟨easy.isPost options, easy.url options, headers, easy.body options⟩
            let response := response ++ transfer.chunks.flatten
            if transfer.res ≠ curleOk then
              some ⟨false, some request, response, { wrapper with options, error := ascii "Error: " ++ strerror transfer.res }⟩
            else some ⟨true, some request, response, { wrapper with options }⟩

inductive CurlCall where
  | setHeaders (headers : List (Bytes × Bool))
  | performs (isPost : Bool) (url postData response : Bytes) (transfer : Transfer)
deriving DecidableEq, Repr

def CurlCall.run (easy : CurlEasy Options) (strerror : Nat → Bytes) (wrapper : LibCurlWrapper Options) (host : CurlHost) :
    CurlCall → Option (LibCurlWrapper Options × CurlHost)
  | .setHeaders headers => wrapper.setHeaders easy headers host
  | .performs isPost url postData response transfer =>
      (wrapper.performRequest easy strerror isPost url postData response transfer host).map fun performed => (performed.wrapper, host)

-- The wrapper from its constructor on, in any order of calls and with any answers.
def libCurl (easy : CurlEasy Options) (strerror : Nat → Bytes) :
    Transition.System (LibCurlWrapper Options × CurlHost) CurlCall where
  initial state := ∃ initialised, state = constructLibCurl easy initialised .fresh
  step state call next := call.run easy strerror state.1 state.2 = some next

-- What is in the list at the end of the loop: an append without memory starts it anew.
def keptHeaders (kept : List Bytes) : List (Bytes × Bool) → List Bytes
  | [] => kept
  | (header, true) :: rest => keptHeaders (kept ++ [cStr header]) rest
  | (_, false) :: rest => keptHeaders [] rest

-- An append without memory gives up what is in the list already.
def losesHeaders (kept : List Bytes) : List (Bytes × Bool) → Bool
  | [] => false
  | (header, true) :: rest => losesHeaders (kept ++ [cStr header]) rest
  | (_, false) :: rest => !kept.isEmpty || losesHeaders [] rest

-- The headers of the last SetHeaders.
def headersSet (trace : List ((LibCurlWrapper Options × CurlHost) × CurlCall)) : List Bytes :=
  trace.foldl (fun headers taken =>
    match taken.2 with
    | .setHeaders given => keptHeaders [] given
    | _ => headers) []

def CurlCall.LosesHeaders : CurlCall → Prop
  | .setHeaders headers => losesHeaders [] headers = true
  | _ => False

def CurlHost.stringsOf (host : CurlHost) : Option Nat → List Bytes
  | none => []
  | some list => host.strings list

-- A list with these strings is live, and those in `lost` are too, but out of reach.
structure CurlHost.Keeps (host : CurlHost) (list : Option Nat) (kept : List Bytes) (lost : List Nat) : Prop where
  live : host.lists.Holds (list.toList ++ lost)
  strings : host.stringsOf list = kept
  present : list = none ↔ kept = []

theorem append_keeps (host : CurlHost) (list : Option Nat) (kept : List Bytes) (lost : List Nat) (keeps : host.Keeps list kept lost)
    (header : Bytes) :
    ∃ next after, host.curlSlistAppend list header true = some (next, after) ∧ after.easies = host.easies ∧
      after.Keeps next (kept ++ [cStr header]) lost := by
  obtain ⟨live, strings, present⟩ := keeps
  cases list with
  | none =>
      obtain ⟨holds, _⟩ := Handles.allocate_holds host.lists lost live
      refine ⟨_, _, rfl, rfl, holds, ?_, by simp⟩
      rw [present.mp rfl]
      exact Function.update_self _ _ _
  | some list =>
      have isLive := Handles.holds_live host.lists lost list live
      refine ⟨_, _, (if_neg Bool.true_eq_false_eq_False).trans (if_pos isLive), rfl, live, ?_, by simp⟩
      exact (Function.update_self _ _ _).trans (congrArg (· ++ [cStr header]) strings)

-- The loop keeps its list, and what it loses is left in the table.
theorem append_headers_keeps (headers : List (Bytes × Bool)) (host : CurlHost) (list : Option Nat) (kept : List Bytes)
    (lost : List Nat) (keeps : host.Keeps list kept lost) :
    ∃ next after more, host.appendHeaders list headers = some (next, after) ∧ after.easies = host.easies ∧
      after.Keeps next (keptHeaders kept headers) (more ++ lost) ∧ (more = [] ↔ losesHeaders kept headers = false) := by
  induction headers generalizing host list kept lost with
  | nil => exact ⟨list, host, [], rfl, rfl, keeps, iff_of_true rfl rfl⟩
  | cons first rest ih =>
      obtain ⟨header, allocated⟩ := first
      cases allocated with
      | true =>
          obtain ⟨next, after, appended, easies, keepsNext⟩ := append_keeps host list kept lost keeps header
          obtain ⟨last, final, more, ran, same, keepsLast, loses⟩ := ih after next _ lost keepsNext
          refine ⟨last, final, more, ?_, same.trans easies, keepsLast, loses⟩
          rw [CurlHost.appendHeaders, appended]
          exact ran
      | false =>
          have forgotten : host.Keeps none [] (list.toList ++ lost) := ⟨keeps.live, rfl, iff_of_true rfl rfl⟩
          obtain ⟨last, final, more, ran, same, keepsLast, loses⟩ := ih host none [] _ forgotten
          refine ⟨last, final, more ++ list.toList, ran, same, by rwa [List.append_assoc], ?_⟩
          rw [losesHeaders, List.append_eq_nil_iff, loses, Option.toList_eq_nil_iff, keeps.present]
          cases kept with
          | nil => simp
          | cons string others => simp

-- The wrapper has its easy handle and its list.
structure LibCurlWrapper.Held (wrapper : LibCurlWrapper Options) (host : CurlHost) (headers : List Bytes) (lost : List Nat) :
    Prop where
  easies : host.easies.Holds wrapper.curl.toList
  keeps : host.Keeps wrapper.curlHeaders headers lost

-- The easy handle has the address of the list.
def LibCurlWrapper.Addressed (easy : CurlEasy Options) (wrapper : LibCurlWrapper Options) : Prop :=
  wrapper.curl.isSome = true → easy.httpHeader wrapper.options = wrapper.curlHeaders

theorem construct_held (easy : CurlEasy Options) (initialised : Bool) :
    (constructLibCurl easy initialised .fresh).1.Held (constructLibCurl easy initialised .fresh).2 [] [] := by
  have keeps : CurlHost.fresh.Keeps none [] [] := ⟨Handles.empty_holds, rfl, iff_of_true rfl rfl⟩
  cases initialised with
  | false => exact ⟨Handles.empty_holds, keeps⟩
  | true => exact ⟨(Handles.allocate_holds Handles.empty [] Handles.empty_holds).1, keeps.live, rfl, keeps.present⟩

theorem free_all_keeps (host : CurlHost) (list : Option Nat) (kept : List Bytes) (lost : List Nat)
    (keeps : host.Keeps list kept lost) :
    ∃ freed, host.curlSlistFreeAll list = some freed ∧ freed.easies = host.easies ∧ freed.Keeps none [] lost := by
  cases list with
  | none => exact ⟨host, rfl, rfl, keeps.live, rfl, iff_of_true rfl rfl⟩
  | some list =>
      obtain ⟨released, isReleased, holds⟩ := Handles.release_holds host.lists lost list keeps.live
      refine ⟨{ host with lists := released }, ?_, rfl, holds, rfl, iff_of_true rfl rfl⟩
      rw [CurlHost.curlSlistFreeAll, isReleased]
      rfl

theorem set_headers_held (easy : CurlEasy Options) (wrapper : LibCurlWrapper Options) (host : CurlHost) (headers : List Bytes)
    (lost : List Nat) (held : wrapper.Held host headers lost) (given : List (Bytes × Bool)) :
    ∃ list after more, wrapper.setHeaders easy given host = some (wrapper.useHeaders easy list, after) ∧
      (wrapper.useHeaders easy list).Held after (keptHeaders [] given) (more ++ lost) ∧
      (more = [] ↔ losesHeaders [] given = false) := by
  obtain ⟨freed, isFreed, easies, forgotten⟩ := free_all_keeps host wrapper.curlHeaders headers lost held.keeps
  obtain ⟨list, after, more, appended, same, keeps, loses⟩ := append_headers_keeps given freed none [] lost forgotten
  refine ⟨list, after, more, ?_, ⟨?_, keeps⟩, loses⟩
  · rw [LibCurlWrapper.setHeaders, isFreed, Option.bind_eq_bind, Option.bind_some, appended]
    rfl
  · rw [same, easies]
    exact held.easies

theorem headers_addressed (easy : CurlEasy Options) (documented : easy.Documented) (wrapper : LibCurlWrapper Options)
    (list : Option Nat) : (wrapper.useHeaders easy list).Addressed easy := by
  intro isSome
  rw [LibCurlWrapper.useHeaders] at isSome ⊢
  dsimp only at isSome ⊢
  rw [if_pos isSome]
  exact documented.header list wrapper.options

theorem header_strings (host : CurlHost) (list : Option Nat) (kept : List Bytes) (lost : List Nat)
    (keeps : host.Keeps list kept lost) : host.headerStrings list = some kept := by
  cases list with
  | none => exact congrArg some keeps.strings
  | some list => exact (if_pos (Handles.holds_live host.lists lost list keeps.live)).trans (congrArg some keeps.strings)

theorem prepare_request (easy : CurlEasy Options) (documented : easy.Documented) (options : Options) (isPost : Bool)
    (url postData : Bytes) :
    easy.isPost (easy.prepare isPost url postData options) = isPost ∧
      easy.url (easy.prepare isPost url postData options) = cStr url ∧
      easy.httpHeader (easy.prepare isPost url postData options) = easy.httpHeader options := by
  cases isPost with
  | false =>
      rw [CurlEasy.prepare, if_neg Bool.false_ne_true]
      exact ⟨documented.post _ _, (documented.postUrl _ _).trans (documented.url _ _),
        (documented.postHeader _ _).trans (documented.urlHeader _ _)⟩
  | true =>
      rw [CurlEasy.prepare, if_pos rfl]
      refine ⟨?_, ?_, ?_⟩
      · rw [documented.sizePost, documented.fieldsPost, documented.post]
      · rw [documented.sizeUrl, documented.fieldsUrl, documented.postUrl, documented.url]
      · rw [documented.sizeHeader, documented.fieldsHeader, documented.postHeader, documented.urlHeader]

theorem prepare_body (easy : CurlEasy Options) (documented : easy.Documented) (options : Options) (isPost : Bool)
    (url postData : Bytes) (fits : postData.length < 2147483648) :
    easy.body (easy.prepare isPost url postData options) = if isPost then postData else [] := by
  cases isPost with
  | false =>
      rw [CurlEasy.prepare, if_neg Bool.false_ne_true]
      exact documented.getBody _ (documented.post _ _)
  | true =>
      have size := to_int_small postData.length (by omega) (by omega)
      rw [CurlEasy.prepare, if_pos rfl, size,
        documented.postBody _ _ _ (Int.natCast_nonneg _) (Int.le_refl _) (documented.post _ _), Int.toNat_natCast, List.take_length]
      rfl

-- What one call of PerformRequest does, whatever was called before it.
structure Performed.Isolated (performed : Performed Options) (wrapper : LibCurlWrapper Options) (headers : List Bytes) (isPost : Bool)
    (url postData response : Bytes) (transfer : Transfer) : Prop where
  uninitialised : wrapper.curl = none →
    performed.returned = false ∧ performed.request = none ∧ performed.response = response
  request : wrapper.curl ≠ none → performed.request = some ⟨isPost, cStr url, headers, if isPost then postData else []⟩
  response : wrapper.curl ≠ none → performed.response = response ++ transfer.chunks.flatten
  returned : wrapper.curl ≠ none → (performed.returned = true ↔ transfer.res = curleOk)

theorem perform_held (easy : CurlEasy Options) (strerror : Nat → Bytes) (wrapper : LibCurlWrapper Options) (host : CurlHost)
    (headers : List Bytes) (lost : List Nat) (held : wrapper.Held host headers lost) (isPost : Bool)
    (url postData response : Bytes) (transfer : Transfer) (performed : Performed Options)
    (ran : wrapper.performRequest easy strerror isPost url postData response transfer host = some performed) :
    performed.wrapper.Held host headers lost := by
  obtain ⟨curl, curlHeaders, options, error⟩ := wrapper
  rw [LibCurlWrapper.performRequest] at ran
  cases curl with
  | none =>
      obtain rfl := Option.some.inj ran
      exact ⟨held.easies, held.keeps⟩
  | some curl =>
      dsimp only at ran
      split at ran
      · cases ran
      · split at ran
        · cases ran
        · split at ran
          · obtain rfl := Option.some.inj ran
            exact ⟨held.easies, held.keeps⟩
          · obtain rfl := Option.some.inj ran
            exact ⟨held.easies, held.keeps⟩

theorem perform_isolated (easy : CurlEasy Options) (documented : easy.Documented) (strerror : Nat → Bytes)
    (wrapper : LibCurlWrapper Options) (host : CurlHost) (headers : List Bytes) (lost : List Nat)
    (held : wrapper.Held host headers lost) (address : wrapper.Addressed easy) (isPost : Bool)
    (url postData response : Bytes) (transfer : Transfer) :
    ∃ performed, wrapper.performRequest easy strerror isPost url postData response transfer host = some performed ∧
      performed.wrapper.Addressed easy ∧
      (postData.length < 2147483648 → performed.Isolated wrapper headers isPost url postData response transfer) := by
  obtain ⟨curl, curlHeaders, options, error⟩ := wrapper
  cases curl with
  | none =>
      refine ⟨_, rfl, (fun none_ => by cases none_), fun _ => ⟨fun _ => ⟨rfl, rfl, rfl⟩, ?_, ?_, ?_⟩⟩
      · exact fun present => absurd rfl present
      · exact fun present => absurd rfl present
      · exact fun present => absurd rfl present
  | some curl =>
      obtain ⟨method, text, pointer⟩ := prepare_request easy documented options isPost url postData
      have isLive : ¬ curl ∉ host.easies.references := not_not.mpr (Handles.holds_live host.easies [] curl held.easies)
      have pointed : easy.httpHeader (easy.prepare isPost url postData options) = curlHeaders := pointer.trans (address rfl)
      have strings : host.headerStrings (easy.httpHeader (easy.prepare isPost url postData options)) = some headers := by
        rw [pointed]
        exact header_strings host curlHeaders headers lost held.keeps
      rw [LibCurlWrapper.performRequest]
      dsimp only
      rw [if_neg isLive, strings]
      dsimp only
      by_cases failed : transfer.res ≠ curleOk
      · rw [if_pos failed]
        refine ⟨_, rfl, fun _ => pointed, fun fits => ⟨fun none_ => ?_, fun _ => ?_, fun _ => rfl, fun _ => ?_⟩⟩
        · cases none_
        · dsimp only
          rw [method, text, prepare_body easy documented options isPost url postData fits]
        · exact iff_of_false Bool.false_ne_true failed
      · rw [if_neg failed]
        refine ⟨_, rfl, fun _ => pointed, fun fits => ⟨fun none_ => ?_, fun _ => ?_, fun _ => rfl, fun _ => ?_⟩⟩
        · cases none_
        · dsimp only
          rw [method, text, prepare_body easy documented options isPost url postData fits]
        · exact iff_of_true rfl (not_not.mp failed)

theorem headers_set_step (trace : List ((LibCurlWrapper Options × CurlHost) × CurlCall))
    (state : LibCurlWrapper Options × CurlHost) :
    (∀ given, headersSet (trace ++ [(state, .setHeaders given)]) = keptHeaders [] given) ∧
      ∀ isPost url postData response transfer,
        headersSet (trace ++ [(state, .performs isPost url postData response transfer)]) = headersSet trace := by
  simp [headersSet]

-- The ledger of the lists, whatever the options of an easy handle do.
theorem curl_run (easy : CurlEasy Options) (strerror : Nat → Bytes)
    (trace : List ((LibCurlWrapper Options × CurlHost) × CurlCall)) (state : LibCurlWrapper Options × CurlHost)
    (run : Transition.Run (libCurl easy strerror) trace state) :
    ∃ lost, state.1.Held state.2 (headersSet trace) lost ∧ (lost = [] ↔ ∀ taken ∈ trace, ¬ taken.2.LosesHeaders) := by
  induction run with
  | start state initial =>
      obtain ⟨initialised, rfl⟩ := initial
      exact ⟨[], construct_held easy initialised, by simp⟩
  | step trace state call next run taken ih =>
      obtain ⟨lost, held, none_⟩ := ih
      cases call with
      | setHeaders given =>
          obtain ⟨list, host, more, set_, heldNext, loses⟩ := set_headers_held easy state.1 state.2 _ lost held given
          have same : state.1.setHeaders easy given state.2 = some next := taken
          obtain rfl := Option.some.inj (set_.symm.trans same)
          rw [(headers_set_step trace state).1]
          refine ⟨more ++ lost, heldNext, ?_⟩
          rw [List.append_eq_nil_iff, List.forall_mem_append, List.forall_mem_singleton, and_comm, none_, loses,
            CurlCall.LosesHeaders, Bool.not_eq_true]
      | performs isPost url postData response transfer =>
          obtain ⟨performed, ran, rfl⟩ := Option.map_eq_some_iff.mp taken
          rw [(headers_set_step trace state).2]
          refine ⟨lost, perform_held easy strerror state.1 state.2 _ lost held isPost url postData response transfer performed ran,
            none_.trans ?_⟩
          rw [List.forall_mem_append, List.forall_mem_singleton]
          exact (and_iff_left id).symm

-- An easy handle that copies its URL, and keeps a size below -1 out. A size of -1 stands for the
-- length of the C string.
structure CurlOptions where
  url : Bytes
  httpHeader : Option Nat
  isPost : Bool
  postFields : Bytes
  postFieldSize : Int
deriving DecidableEq, Repr

def sampleEasy : CurlEasy CurlOptions where
  init := ⟨[], none, false, [], -1⟩
  setUrl url options := { options with url }
  setHttpHeader httpHeader options := { options with httpHeader }
  setPost isPost options := { options with isPost }
  setPostFields postFields options := { options with postFields }
  setPostFieldSize size options := { options with postFieldSize := if size < -1 then options.postFieldSize else size }
  url options := options.url
  httpHeader options := options.httpHeader
  isPost options := options.isPost
  body options :=
    if options.isPost = false then []
    else if options.postFieldSize = -1 then cStr options.postFields
    else options.postFields.take options.postFieldSize.toNat

def startedCurl : LibCurlWrapper CurlOptions × CurlHost := constructLibCurl sampleEasy true .fresh

def headedCurl : LibCurlWrapper CurlOptions × CurlHost :=
  (startedCurl.1.setHeaders sampleEasy [(ascii "a: b", true)] startedCurl.2).getD startedCurl

theorem headed_run :
    Transition.Run (libCurl sampleEasy fun _ => []) [(startedCurl, .setHeaders [(ascii "a: b", true)])] headedCurl :=
  .step [] startedCurl _ headedCurl (.start startedCurl ⟨true, rfl⟩) rfl

-- The destructor gives the easy handle back, and the headers only where there are none.
theorem headers_released_iff (easy : CurlEasy Options) (strerror : Nat → Bytes)
    (trace : List ((LibCurlWrapper Options × CurlHost) × CurlCall)) (wrapper : LibCurlWrapper Options) (host : CurlHost)
    (run : Transition.Run (libCurl easy strerror) trace (wrapper, host)) :
    ∃ left, wrapper.destroy host = some left ∧ left.easies.references = [] ∧
      (left.lists.references = [] ↔ headersSet trace = [] ∧ ∀ taken ∈ trace, ¬ taken.2.LosesHeaders) := by
  obtain ⟨lost, held, none_⟩ := curl_run easy strerror trace (wrapper, host) run
  obtain ⟨easies, keeps⟩ := held
  have lists : host.lists.references = [] ↔ headersSet trace = [] ∧ ∀ taken ∈ trace, ¬ taken.2.LosesHeaders := by
    rw [Handles.holds_nil host.lists _ keeps.live, List.append_eq_nil_iff, Option.toList_eq_nil_iff, keeps.present, none_]
  rw [LibCurlWrapper.destroy]
  dsimp only at easies ⊢
  cases isCurl : wrapper.curl with
  | none =>
      rw [isCurl] at easies
      exact ⟨host, rfl, (Handles.holds_nil host.easies [] easies).mpr rfl, lists⟩
  | some curl =>
      rw [isCurl] at easies
      obtain ⟨released, isReleased, holds⟩ := Handles.release_holds host.easies [] curl easies
      refine ⟨{ host with easies := released }, ?_, (Handles.holds_nil released [] holds).mpr rfl, lists⟩
      dsimp only
      rw [isReleased]
      rfl

-- One exchange is enough to leave its headers behind.
theorem headers_released_exchange :
    ∃ left, headedCurl.1.destroy headedCurl.2 = some left ∧ left.easies.references = [] ∧ left.lists.references ≠ [] := by
  obtain ⟨left, destroyed, easies, lists⟩ := headers_released_iff sampleEasy (fun _ => []) _ headedCurl.1 headedCurl.2 headed_run
  exact ⟨left, destroyed, easies, fun released => absurd (lists.mp released).1 (by decide)⟩

-- The way each of the four exchanges of a registration uses the wrapper.
def exchange (easy : CurlEasy Options) (strerror : Nat → Bytes) (request : HttpRequest) (transfer : Transfer) :
    Option (Performed Options) := do
  let (wrapper, host) := constructLibCurl easy true .fresh
  let (wrapper, host) ← wrapper.setHeaders easy (request.headers.map (·, true)) host
  wrapper.performRequest easy strerror true request.url request.postData [] transfer host

theorem kept_all (kept headers : List Bytes) : keptHeaders kept (headers.map (·, true)) = kept ++ headers.map cStr := by
  induction headers generalizing kept with
  | nil => exact (List.append_nil kept).symm
  | cons header rest ih =>
      rw [List.map_cons, keptHeaders, ih, List.map_cons, List.append_assoc]
      rfl

-- What Http stands for: the request arrives, and the answer is the whole response or none.
theorem exchange_posts (easy : CurlEasy Options) (documented : easy.Documented) (strerror : Nat → Bytes)
    (request : HttpRequest) (transfer : Transfer) (fits : request.postData.length < 2147483648) :
    ∃ performed, exchange easy strerror request transfer = some performed ∧
      performed.request = some ⟨true, cStr request.url, request.headers.map cStr, request.postData⟩ ∧
      performed.response = transfer.chunks.flatten ∧ (performed.returned = true ↔ transfer.res = curleOk) := by
  obtain ⟨list, host, _, set_, held, _⟩ :=
    set_headers_held easy _ _ [] [] (construct_held easy true) (request.headers.map (·, true))
  obtain ⟨performed, ran, _, isolated⟩ := perform_isolated easy documented strerror _ host _ _ held
    (headers_addressed easy documented _ list) true request.url request.postData [] transfer
  have present : ((constructLibCurl easy true .fresh).1.useHeaders easy list).curl ≠ none := Option.some_ne_none _
  have isolatedHere := isolated fits
  rw [kept_all, List.nil_append] at isolatedHere
  refine ⟨performed, ?_, isolatedHere.request present, isolatedHere.response present, isolatedHere.returned present⟩
  rw [exchange, Option.bind_eq_bind]
  dsimp only
  rw [set_, Option.bind_some]
  exact ran

end PushReceiver
