import PushReceiver.Segmentation

set_option autoImplicit false

namespace PushReceiver

variable {σ : Type}

-- The loop asks for what the declared size leaves open, as natural numbers.
def AsksForRest (target : Target) (client : Client σ) : Prop :=
  ∃ waiting, loopHead target client = .receives waiting ∧
    requestLength target waiting = client.messageSize.toNat - client.bytesReadFromServer.length

theorem body_need_small (target : Target) (client : Client σ) (state : client.state = .mcsProtoBytes)
    (small : client.messageSize.toNat < 2147483648) :
    target.toSize (calculateMinBytesNeeded client) = client.messageSize.toNat := by
  simp only [calculateMinBytesNeeded, state]
  rw [to_int_small _ (by omega) (by omega), to_size_small target _ (by omega) (by omega), Int.toNat_natCast]

-- From 2^31 on the int is negative, and the conversion to size_t fills it up with ones.
theorem body_need_large (target : Target) (client : Client σ) (state : client.state = .mcsProtoBytes)
    (large : 2147483648 ≤ client.messageSize.toNat) :
    target.toSize (calculateMinBytesNeeded client) + 4294967296 = client.messageSize.toNat + 2 ^ target.sizeBits := by
  have bound := client.messageSize.toNat_lt
  simp only [calculateMinBytesNeeded, state]
  rw [to_int_large _ (by omega) (by omega)]
  have wraps := to_size_negative target (client.messageSize.toNat - 4294967296) (by omega) (by omega)
  omega

theorem head_asks (target : Target) (client : Client σ) (request : Nat)
    (need : target.toSize (calculateMinBytesNeeded client) = client.bytesReadFromServer.length + request) (positive : 0 < request) :
    (∃ waiting, loopHead target client = .receives waiting ∧ requestLength target waiting = request) ↔ request ≤ target.maxSize := by
  have length : requestLength target client.compute = request := Nat.sub_eq_of_eq_add' need
  have short : client.bytesReadFromServer.length < target.toSize client.compute.minBytesNeeded := by
    rw [Client.compute, need]
    exact Nat.lt_add_of_pos_right positive
  rw [loopHead, if_pos short, length]
  by_cases allocated : target.maxSize < request
  · rw [if_pos allocated]
    refine iff_of_false ?_ (Nat.not_le.mpr allocated)
    rintro ⟨_, receives, _⟩
    cases receives
  · rw [if_neg allocated]
    exact iff_of_true ⟨client.compute, rfl, length⟩ (Nat.le_of_not_lt allocated)

theorem asks_for_rest_iff (target : Target) (client : Client σ) (state : client.state = .mcsProtoBytes)
    (missing : client.bytesReadFromServer.length < client.messageSize.toNat) :
    AsksForRest target client ↔ client.messageSize.toNat < 2147483648 ∨
      (target.sizeBits = 32 ∧ client.messageSize.toNat - client.bytesReadFromServer.length < 2147483648) := by
  have bound := client.messageSize.toNat_lt
  have room := max_size_lower target
  by_cases small : client.messageSize.toNat < 2147483648
  · have need := body_need_small target client state small
    rw [AsksForRest, head_asks target client _ (by omega) (by omega)]
    exact iff_of_true (by omega) (.inl small)
  · have need := body_need_large target client state (Nat.le_of_not_lt small)
    rw [or_iff_right small]
    rcases target.width with narrow | wide
    · rw [narrow] at need
      rw [AsksForRest, head_asks target client _ (by omega) (by omega), max_size_narrow target narrow, and_iff_right narrow]
      omega
    · rw [wide] at need
      have most := max_size_wide target wide
      have never : ∀ waiting, loopHead target client ≠ .receives waiting := by
        intro waiting receives
        obtain ⟨rfl, positive, allocated, _⟩ := head_receives target client waiting receives
        simp only [requestLength, Client.compute] at allocated
        omega
      refine iff_of_false ?_ ?_
      · rintro ⟨waiting, receives, _⟩
        exact never waiting receives
      · rw [wide]
        rintro ⟨narrow, _⟩
        exact absurd narrow (by decide)

-- Two of three bytes of a body are there.
def partialBody : Client Unit :=
  { Client.fresh () with state := .mcsProtoBytes, messageTag := 7, messageSize := 3, bytesReadFromServer := [1, 2] }

theorem asks_for_rest_one : AsksForRest .x64 partialBody ↔ partialBody.messageSize.toNat < 2147483648 ∨
    (Target.x64.sizeBits = 32 ∧ partialBody.messageSize.toNat - partialBody.bytesReadFromServer.length < 2147483648) :=
  asks_for_rest_iff .x64 partialBody rfl (by decide)

-- The size prefix 80 80 80 80 08.
def hugeBody : Client Unit := { Client.fresh () with state := .mcsProtoBytes, messageTag := 7, messageSize := 2147483648 }

theorem huge_body_refused :
    gotMessageSize .x64 silentHandlers { Client.fresh () with
        state := .mcsSize, messageTag := 7, bytesReadFromServer := [0x80, 0x80, 0x80, 0x80, 0x08] } = .returns hugeBody ∧
      loopHead .x64 hugeBody = .throws .lengthError hugeBody.compute ∧ ¬ AsksForRest .x64 hugeBody := by
  have refused : loopHead .x64 hugeBody = .throws .lengthError hugeBody.compute := by decide +kernel
  refine ⟨by decide +kernel, refused, ?_⟩
  rintro ⟨waiting, receives, _⟩
  rw [refused] at receives
  cases receives

end PushReceiver
