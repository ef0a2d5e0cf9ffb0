import PushReceiver.Library.JsonScan

set_option autoImplicit false

namespace JsonText

-- A number is kept as its text, the members of an object in their order.
inductive Value where
  | null
  | boolean (value : Bool)
  | number (text : List UInt8)
  | string (text : List UInt8)
  | array (elements : List Value)
  | object (members : List (List UInt8 × Value))
deriving Repr

-- An array or an object that is not closed yet; an object with the last name read.
inductive Frame where
  | array (elements : List Value)
  | object (members : List (List UInt8 × Value)) (name : List UInt8)
deriving Repr

inductive Expect where
  | value
  | firstValue
  | name
  | firstName
  | colon
  | separator
deriving DecidableEq, Repr

inductive Build where
  | inside (stack : List Frame) (expect : Expect)
  | finished (value : Value)
deriving Repr

def deliver (value : Value) : List Frame → Build
  | [] => .finished value
  | .array elements :: outer => .inside (.array (elements ++ [value]) :: outer) .separator
  | .object members name :: outer => .inside (.object (members ++ [(name, value)]) name :: outer) .separator

def Token.scalar : Token → Option Value
  | .null => some .null
  | .boolean value => some (.boolean value)
  | .number text => some (.number text)
  | .string text => some (.string text)
  | _ => none

def valueStep (stack : List Frame) (token : Token) : Option Build :=
  match token with
  | .beginArray => some (.inside (.array [] :: stack) .firstValue)
  | .beginObject => some (.inside (.object [] [] :: stack) .firstName)
  | _ => token.scalar.map fun value => deliver value stack

def nameStep (members : List (List UInt8 × Value)) (outer : List Frame) : Token → Option Build
  | .string name => some (.inside (.object members name :: outer) .colon)
  | _ => none

def separatorStep (top : Frame) (outer : List Frame) (token : Token) : Option Build :=
  match token, top with
  | .valueSeparator, .array elements => some (.inside (.array elements :: outer) .value)
  | .valueSeparator, .object members name => some (.inside (.object members name :: outer) .name)
  | .endArray, .array elements => some (deliver (.array elements) outer)
  | .endObject, .object members _ => some (deliver (.object members) outer)
  | _, _ => none

def buildStep : Build → Token → Option Build
  | .finished _, _ => none
  | .inside stack .value, token => valueStep stack token
  | .inside (.array elements :: outer) .firstValue, token =>
      if token = .endArray then some (deliver (.array elements) outer) else valueStep (.array elements :: outer) token
  | .inside (.object members _ :: outer) .name, token => nameStep members outer token
  | .inside (.object members _ :: outer) .firstName, token =>
      if token = .endObject then some (deliver (.object members) outer) else nameStep members outer token
  | .inside stack .colon, token => if token = .nameSeparator then some (.inside stack .value) else none
  | .inside (top :: outer) .separator, token => separatorStep top outer token
  | .inside _ _, _ => none

def buildRun : Build → List Token → Option Build
  | build, [] => some build
  | build, token :: rest => (buildStep build token).bind fun next => buildRun next rest

def Build.result : Build → Option Value
  | .finished value => some value
  | .inside _ _ => none

def parse (text : List UInt8) : Option Value :=
  (tokenize text).bind fun tokens => (buildRun (.inside [] .value) tokens).bind Build.result

-- The bytes a value needs at least: quotation marks, colons, and a comma or the end behind each member.
mutual
def cost : Value → Nat
  | .string text => text.length + 2
  | .array elements => 1 + elementsCost elements
  | .object members => 1 + membersCost members
  | _ => 1

def elementsCost : List Value → Nat
  | [] => 0
  | value :: rest => cost value + 1 + elementsCost rest

def membersCost : List (List UInt8 × Value) → Nat
  | [] => 0
  | (name, value) :: rest => name.length + 3 + cost value + 1 + membersCost rest
end

-- All names and texts of a value.
mutual
def strings : Value → List (List UInt8)
  | .string text => [text]
  | .array elements => elementsStrings elements
  | .object members => membersStrings members
  | _ => []

def elementsStrings : List Value → List (List UInt8)
  | [] => []
  | value :: rest => strings value ++ elementsStrings rest

def membersStrings : List (List UInt8 × Value) → List (List UInt8)
  | [] => []
  | (name, value) :: rest => name :: strings value ++ membersStrings rest
end

def waiting : List Frame → Nat
  | [] => 0
  | .array elements :: outer => 1 + elementsCost elements + waiting outer
  | .object members name :: outer => 1 + membersCost members + (name.length + 3) + waiting outer

-- What the tokens so far have cost at least.
def buildCost : Build → Nat
  | .finished value => cost value
  | .inside (.object members _ :: outer) .name => 1 + membersCost members + waiting outer
  | .inside (.object members _ :: outer) .firstName => 1 + membersCost members + waiting outer
  | .inside stack .colon => waiting stack - 1
  | .inside (.array elements :: outer) .separator => elementsCost elements + waiting outer
  | .inside (.object members _ :: outer) .separator => membersCost members + waiting outer
  | .inside stack _ => waiting stack

theorem value_cost (stack : List Frame) : buildCost (.inside stack .value) = waiting stack := by
  cases stack with
  | nil => rfl
  | cons top outer => cases top <;> rfl

theorem elements_cost_append (first second : List Value) :
    elementsCost (first ++ second) = elementsCost first + elementsCost second := by
  induction first with
  | nil => simp [elementsCost]
  | cons value rest ih =>
      rw [List.cons_append, elementsCost, elementsCost, ih]
      omega

theorem members_cost_append (first second : List (List UInt8 × Value)) :
    membersCost (first ++ second) = membersCost first + membersCost second := by
  induction first with
  | nil => simp [membersCost]
  | cons member rest ih =>
      rw [List.cons_append, membersCost, membersCost, ih]
      omega

theorem deliver_cost (value : Value) (stack : List Frame) : buildCost (deliver value stack) = cost value + waiting stack := by
  cases stack with
  | nil => rfl
  | cons top outer =>
      cases top with
      | array elements =>
          simp only [deliver, buildCost, waiting, elements_cost_append, elementsCost]
          omega
      | object members name =>
          simp only [deliver, buildCost, waiting, members_cost_append, membersCost]
          omega

theorem scalar_cost (token : Token) (value : Value) (isScalar : token.scalar = some value) : cost value = weight token := by
  cases token <;> cases isScalar <;> rfl

theorem value_step_cost (stack : List Frame) (token : Token) (next : Build) (stepped : valueStep stack token = some next) :
    buildCost next ≤ waiting stack + weight token := by
  unfold valueStep at stepped
  split at stepped
  · cases stepped
    simp only [buildCost, waiting, elementsCost, weight]
    omega
  · cases stepped
    simp only [buildCost, membersCost, weight]
    omega
  · obtain ⟨value, isScalar, rfl⟩ := Option.map_eq_some_iff.mp stepped
    rw [deliver_cost, scalar_cost token value isScalar]
    omega

theorem name_step_cost (members : List (List UInt8 × Value)) (outer : List Frame) (token : Token) (next : Build)
    (stepped : nameStep members outer token = some next) :
    buildCost next ≤ 1 + membersCost members + waiting outer + weight token := by
  unfold nameStep at stepped
  split at stepped
  · cases stepped
    simp only [buildCost, waiting, weight]
    omega
  · cases stepped

theorem separator_step_cost (top : Frame) (outer : List Frame) (token : Token) (next : Build)
    (stepped : separatorStep top outer token = some next) :
    buildCost next ≤ buildCost (.inside (top :: outer) .separator) + weight token := by
  unfold separatorStep at stepped
  split at stepped
  · cases stepped
    simp only [buildCost, waiting, weight]
    omega
  · cases stepped
    simp only [buildCost, weight]
    omega
  · cases stepped
    rw [deliver_cost]
    simp only [buildCost, cost, weight]
    omega
  · cases stepped
    rw [deliver_cost]
    simp only [buildCost, cost, weight]
    omega
  · cases stepped

theorem build_step_cost (build : Build) (token : Token) (next : Build) (stepped : buildStep build token = some next) :
    buildCost next ≤ buildCost build + weight token := by
  unfold buildStep at stepped
  split at stepped
  · cases stepped
  · rw [value_cost]
    exact value_step_cost _ token next stepped
  · split at stepped
    · cases stepped
      rw [deliver_cost]
      simp only [buildCost, waiting, cost]
      omega
    · exact value_step_cost _ token next stepped
  · exact name_step_cost _ _ token next stepped
  · split at stepped
    · cases stepped
      rw [deliver_cost]
      simp only [buildCost, cost]
      omega
    · exact name_step_cost _ _ token next stepped
  · split at stepped
    · rename_i colon
      cases stepped
      simp only [buildCost, colon, weight]
      omega
    · cases stepped
  · exact separator_step_cost _ _ token next stepped
  · cases stepped

theorem build_run_cost (tokens : List Token) (build last : Build) (run : buildRun build tokens = some last) :
    buildCost last ≤ buildCost build + weights tokens := by
  induction tokens generalizing build with
  | nil =>
      cases run
      exact Nat.le_refl _
  | cons token rest ih =>
      obtain ⟨next, stepped, later⟩ := Option.bind_eq_some_iff.mp run
      have step := build_step_cost build token next stepped
      have after := ih next later
      rw [weights]
      omega

def frameStrings : Frame → List (List UInt8)
  | .array elements => elementsStrings elements
  | .object members name => name :: membersStrings members

def stackStrings (stack : List Frame) : List (List UInt8) := stack.flatMap frameStrings

def buildStrings : Build → List (List UInt8)
  | .finished value => strings value
  | .inside stack _ => stackStrings stack

theorem elements_strings_append (first second : List Value) :
    elementsStrings (first ++ second) = elementsStrings first ++ elementsStrings second := by
  induction first with
  | nil => rfl
  | cons value rest ih => rw [List.cons_append, elementsStrings, elementsStrings, ih, List.append_assoc]

theorem members_strings_append (first second : List (List UInt8 × Value)) :
    membersStrings (first ++ second) = membersStrings first ++ membersStrings second := by
  induction first with
  | nil => rfl
  | cons member rest ih => rw [List.cons_append, membersStrings, membersStrings, ih]; simp

theorem deliver_strings (value : Value) (stack : List Frame) (text : List UInt8) (member : text ∈ buildStrings (deliver value stack)) :
    text ∈ strings value ∨ text ∈ stackStrings stack := by
  cases stack with
  | nil => exact .inl member
  | cons top outer =>
      cases top with
      | array elements =>
          simp only [deliver, buildStrings, stackStrings, List.flatMap_cons, frameStrings, elements_strings_append, elementsStrings,
            List.append_nil, List.mem_append] at member ⊢
          tauto
      | object members name =>
          simp only [deliver, buildStrings, stackStrings, List.flatMap_cons, frameStrings, members_strings_append, membersStrings,
            List.append_nil, List.mem_append, List.mem_cons] at member ⊢
          tauto

theorem scalar_strings (token : Token) (value : Value) (isScalar : token.scalar = some value) (text : List UInt8)
    (member : text ∈ strings value) : token = .string text := by
  cases token with
  | string given =>
      cases isScalar
      simp only [strings, List.mem_singleton] at member
      rw [member]
  | null =>
      cases isScalar
      simp [strings] at member
  | boolean flag =>
      cases isScalar
      simp [strings] at member
  | number digits =>
      cases isScalar
      simp [strings] at member
  | _ => cases isScalar

theorem value_step_strings (stack : List Frame) (token : Token) (next : Build) (stepped : valueStep stack token = some next)
    (text : List UInt8) (member : text ∈ buildStrings next) : text ∈ stackStrings stack ∨ token = .string text ∨ text = [] := by
  unfold valueStep at stepped
  split at stepped
  · cases stepped
    exact .inl (by simpa [buildStrings, stackStrings, frameStrings, elementsStrings] using member)
  · cases stepped
    simp only [buildStrings, stackStrings, List.flatMap_cons, frameStrings, membersStrings, List.cons_append, List.nil_append,
      List.mem_cons] at member
    exact member.elim (fun empty => .inr (.inr empty)) .inl
  · obtain ⟨value, isScalar, rfl⟩ := Option.map_eq_some_iff.mp stepped
    rcases deliver_strings value stack text member with here | before
    · exact .inr (.inl (scalar_strings token value isScalar text here))
    · exact .inl before

theorem name_step_strings (members : List (List UInt8 × Value)) (held : List UInt8) (outer : List Frame) (token : Token) (next : Build)
    (stepped : nameStep members outer token = some next) (text : List UInt8) (member : text ∈ buildStrings next) :
    text ∈ stackStrings (.object members held :: outer) ∨ token = .string text := by
  unfold nameStep at stepped
  split at stepped
  · cases stepped
    simp only [buildStrings, stackStrings, List.flatMap_cons, frameStrings, List.cons_append, List.mem_cons, List.mem_append,
      Token.string.injEq] at member ⊢
    tauto
  · cases stepped

theorem separator_step_strings (top : Frame) (outer : List Frame) (token : Token) (next : Build)
    (stepped : separatorStep top outer token = some next) (text : List UInt8) (member : text ∈ buildStrings next) :
    text ∈ stackStrings (top :: outer) := by
  unfold separatorStep at stepped
  split at stepped
  · cases stepped
    exact member
  · cases stepped
    exact member
  · cases stepped
    exact List.mem_append.mpr (deliver_strings _ _ text member)
  · cases stepped
    rcases deliver_strings _ _ text member with here | before
    · exact List.mem_append_left _ (List.mem_cons_of_mem _ here)
    · exact List.mem_append_right _ before
  · cases stepped

theorem build_step_strings (build : Build) (token : Token) (next : Build) (stepped : buildStep build token = some next)
    (text : List UInt8) (member : text ∈ buildStrings next) : text ∈ buildStrings build ∨ token = .string text ∨ text = [] := by
  unfold buildStep at stepped
  split at stepped
  · cases stepped
  · exact value_step_strings _ token next stepped text member
  · split at stepped
    · cases stepped
      exact .inl (List.mem_append.mpr (deliver_strings _ _ text member))
    · exact value_step_strings _ token next stepped text member
  · exact (name_step_strings _ _ _ token next stepped text member).imp_right .inl
  · split at stepped
    · cases stepped
      rcases deliver_strings _ _ text member with here | before
      · exact .inl (List.mem_append_left _ (List.mem_cons_of_mem _ here))
      · exact .inl (List.mem_append_right _ before)
    · exact (name_step_strings _ _ _ token next stepped text member).imp_right .inl
  · split at stepped
    · cases stepped
      exact .inl member
    · cases stepped
  · exact .inl (separator_step_strings _ _ token next stepped text member)
  · cases stepped

theorem build_run_strings (tokens : List Token) (build last : Build) (run : buildRun build tokens = some last) (text : List UInt8)
    (member : text ∈ buildStrings last) : text ∈ buildStrings build ∨ .string text ∈ tokens ∨ text = [] := by
  induction tokens generalizing build with
  | nil =>
      cases run
      exact .inl member
  | cons token rest ih =>
      obtain ⟨next, stepped, later⟩ := Option.bind_eq_some_iff.mp run
      rcases ih next later with inNext | inRest | empty
      · rcases build_step_strings build token next stepped text inNext with before | here | empty
        · exact .inl before
        · exact .inr (.inl (here ▸ List.mem_cons_self))
        · exact .inr (.inr empty)
      · exact .inr (.inl (List.mem_cons_of_mem _ inRest))
      · exact .inr (.inr empty)

theorem plain_nil : Plain [] := ⟨by simp, rfl⟩

-- A text is no shorter than its value needs, and where it is as short, every string in it stands as it is.
theorem parsed_accounts (text : List UInt8) (value : Value) (parsed : parse text = some value) :
    cost value ≤ text.length ∧ (cost value = text.length → ∀ part ∈ strings value, Plain part) := by
  obtain ⟨tokens, read, built⟩ := Option.bind_eq_some_iff.mp parsed
  obtain ⟨last, run, result⟩ := Option.bind_eq_some_iff.mp built
  cases last with
  | inside stack expect => cases result
  | finished found =>
      cases result
      obtain ⟨size, plain⟩ := tokenize_accounts text tokens read
      have spent := build_run_cost tokens _ _ run
      rw [value_cost, waiting, Nat.zero_add] at spent
      change cost value ≤ weights tokens at spent
      refine ⟨Nat.le_trans spent size, ?_⟩
      intro exact part member
      have whole : weights tokens = text.length := by omega
      rcases build_run_strings tokens _ _ run part member with none | inside | empty
      · cases none
      · exact plain whole part inside
      · exact empty ▸ plain_nil

theorem plain_ascii (text : List UInt8) (small : ∀ byte ∈ text, Unescaped byte ∧ byte < 0x80) : Plain text := by
  refine ⟨fun byte member => (small byte member).1, ?_⟩
  induction text with
  | nil => rfl
  | cons byte rest ih =>
      obtain ⟨⟨_, isAscii⟩, others⟩ := List.forall_mem_cons.mp small
      rw [utf8Run, utf8Step, utf8First, if_pos isAscii]
      exact ih others

theorem plain_suffix (first second : List UInt8) (whole : utf8Run .complete first = some .complete) (plain : Plain (first ++ second)) :
    Plain second := by
  refine ⟨fun byte member => plain.unescaped byte (List.mem_append_right _ member), ?_⟩
  rw [← plain.utf8, utf8_run_append _ _ first second whole]

-- A field of a text with holes: the text up to its quotation mark, and the fixed part behind.
theorem scan_field (held text fixed rest : List UInt8) (tokens : List Token) (next : Scan) (plain : Plain text)
    (closed : scanRun .ground fixed = some (tokens, next)) :
    scanRun (.string held .complete) (text ++ 34 :: (fixed ++ rest)) =
      (scanRun next rest).map fun after => (.string (held ++ text) :: (tokens ++ after.1), after.2) := by
  rw [scan_string text held _ plain, scan_run_append, closed]
  simp [Function.comp_def]

end JsonText
