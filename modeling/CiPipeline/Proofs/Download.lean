import CiPipeline.Download
import CiPipeline.Proofs.Workspace

/-!
# Requests of a download

A download sends requests until one has an outcome that does not invite another,
and four at most.  The outcome of the last request alone decides what becomes of
the download.
-/

namespace CiPipeline

open CiPipeline.Action

/-- What becomes of the next requests to an address. -/
def Workspace.outcomes (workspace : Workspace) (surroundings : Surroundings)
    (address : Url) (index : Nat) : RequestOutcome :=
  surroundings.request address (workspace.requests.count address.text + index)

/-- No connection in time, too many requests, and errors on the side
of the server. -/
inductive RequestOutcome.InvitesRetry : RequestOutcome → Prop where
  | unreachable : InvitesRetry .unreachable
  | tooManyRequests (body : Option ByteArray) :
      InvitesRetry (.answered 429 body)
  | serverError {status : Nat} (body : Option ByteArray) :
      500 ≤ status → status ≤ 599 → InvitesRetry (.answered status body)

theorem RequestOutcome.isTransient_iff {outcome : RequestOutcome} :
    outcome.isTransient = true ↔ outcome.InvitesRetry := by
  constructor
  · intro transient
    cases outcome with
    | unreachable => exact .unreachable
    | broken => cases transient
    | answered status body =>
        simp only [isTransient, Http.isTransient, Bool.or_eq_true, beq_iff_eq,
          Bool.and_eq_true, decide_eq_true_eq] at transient
        rcases transient with rfl | ⟨low, high⟩
        · exact .tooManyRequests body
        · exact .serverError body low (Nat.le_of_lt_succ high)
  · intro invites
    cases invites with
    | unreachable => rfl
    | tooManyRequests body => rfl
    | serverError body low high =>
        simp [isTransient, Http.isTransient, low, Nat.lt_succ_of_le high]

theorem Http.isSuccess_iff {status : Nat} :
    isSuccess status = true ↔ 200 ≤ status ∧ status ≤ 299 := by
  simp only [isSuccess, Bool.and_eq_true, decide_eq_true_eq, Nat.lt_succ_iff]

namespace Download

/-! ## The last request -/

/-- What becomes of a download by the outcome of its last request. -/
inductive Settles (address : Url) :
    RequestOutcome → Except Failure ByteArray → Prop where
  | arrived {status : Nat} {body : ByteArray} : 200 ≤ status → status ≤ 299 →
      Settles address (.answered status (some body)) (.ok body)
  | cutShort {status : Nat} : 200 ≤ status → status ≤ 299 →
      Settles address (.answered status none)
        (.error (.network "error decoding response body"))
  | refused {status : Nat} {body : Option ByteArray} :
      ¬(200 ≤ status ∧ status ≤ 299) →
      Settles address (.answered status body)
        (.error (.remoteInclude address.text
          ("status " ++ Http.statusText status)))
  | unreachable : Settles address .unreachable
      (.error (.network
        ("error sending request for url (" ++ address.requestText ++ ")")))
  | broken : Settles address .broken
      (.error (.network
        ("error sending request for url (" ++ address.requestText ++ ")")))

theorem settles_iff {address : Url} {outcome : RequestOutcome}
    {result : Except Failure ByteArray} :
    Settles address outcome result ↔ result = settle address outcome := by
  constructor
  · intro settles
    cases settles with
    | arrived low high =>
        rw [settle, if_pos (Http.isSuccess_iff.mpr ⟨low, high⟩)]
    | cutShort low high =>
        rw [settle, if_pos (Http.isSuccess_iff.mpr ⟨low, high⟩)]
    | refused other =>
        simp only [settle]
        rw [if_neg (mt Http.isSuccess_iff.mp other)]
    | unreachable => rfl
    | broken => rfl
  · rintro rfl
    cases outcome with
    | unreachable => exact .unreachable
    | broken => exact .broken
    | answered status body =>
        simp only [settle]
        split
        · rename_i isSuccess
          obtain ⟨low, high⟩ := Http.isSuccess_iff.mp isSuccess
          cases body with
          | none => exact .cutShort low high
          | some body => exact .arrived low high
        · rename_i noSuccess
          exact .refused (mt Http.isSuccess_iff.mpr noSuccess)

/-- A number of requests after which no other follows: every request before the
last one had an outcome that invites another, and the last one had not, unless
it was the last that may be sent. -/
structure Stops (most : Nat) (outcomes : Nat → RequestOutcome)
    (count : Nat) : Prop where
  started : 0 < count
  bounded : count ≤ most
  retried : ∀ index, index + 1 < count → (outcomes index).InvitesRetry
  final : count = most ∨ ¬(outcomes (count - 1)).InvitesRetry

namespace Stops

variable {most count other : Nat} {outcomes : Nat → RequestOutcome}

private theorem le (stops : Stops most outcomes count)
    (also : Stops most outcomes other) :
    count ≤ other := by
  refine Nat.le_of_not_lt fun less => ?_
  have positive := also.started
  have invites : (outcomes (other - 1)).InvitesRetry :=
    stops.retried _ (by omega)
  rcases also.final with last | settled
  · have := stops.bounded
    omega
  · exact settled invites

theorem unique (stops : Stops most outcomes count)
    (also : Stops most outcomes other) :
    count = other :=
  Nat.le_antisymm (stops.le also) (also.le stops)

private theorem first (final : 1 = most + 1 ∨ ¬(outcomes 0).InvitesRetry) :
    Stops (most + 1) outcomes 1 :=
  ⟨Nat.one_pos, by omega, fun index early => by omega, final⟩

private theorem next (invites : (outcomes 0).InvitesRetry)
    (stops : Stops most (fun index => outcomes (index + 1)) count) :
    Stops (most + 1) outcomes (count + 1) := by
  have positive := stops.started
  refine ⟨Nat.succ_pos count, Nat.succ_le_succ stops.bounded, ?_, ?_⟩
  · intro index early
    cases index with
    | zero => exact invites
    | succ index => exact stops.retried index (by omega)
  · rcases stops.final with last | settled
    · exact .inl (by rw [last])
    · rw [Nat.sub_add_cancel positive] at settled
      exact .inr settled

end Stops

/-! ## All requests -/

section

variable {surroundings : Surroundings} {workspace : Workspace}

/-- Each request is answered by the next outcome, and leaves the rest of
the outcomes. -/
theorem outcomes_requested (address : Url) :
    Workspace.outcomes { workspace with
      requests := address.text :: workspace.requests } surroundings address =
      fun index => workspace.outcomes surroundings address (index + 1) := by
  funext index
  rw [Workspace.outcomes, Workspace.outcomes, List.count_cons_self,
    Nat.add_assoc, Nat.add_comm 1 index]

theorem perform_attempt (address : Url) (retries : Nat) :
    ∃ count, Stops (retries + 1)
      (workspace.outcomes surroundings address) count ∧
      perform surroundings (attempt address retries) workspace =
        (settle address (workspace.outcomes surroundings address (count - 1)),
          { workspace with
            requests :=
              List.replicate count address.text ++ workspace.requests }) := by
  induction retries generalizing workspace with
  | zero =>
      refine ⟨1, .first (.inl rfl), ?_⟩
      rw [attempt, perform_bind, perform_request]
      exact perform_ofExcept _
  | succ retries induction =>
      rw [attempt, perform_bind, perform_request]
      dsimp only
      by_cases transient :
          (surroundings.request address
            (workspace.requests.count address.text)).isTransient
      · obtain ⟨count, stops, performed⟩ :=
          @induction { workspace with
            requests := address.text :: workspace.requests }
        have positive := stops.started
        rw [outcomes_requested] at stops performed
        dsimp only at performed
        refine ⟨count + 1,
          stops.next (RequestOutcome.isTransient_iff.mp transient), ?_⟩
        rw [if_pos transient, performed, Nat.sub_add_cancel positive,
          Nat.add_sub_cancel, List.replicate_succ', List.append_assoc]
        rfl
      · refine ⟨1,
          .first (.inr (mt RequestOutcome.isTransient_iff.mpr transient)), ?_⟩
        rw [if_neg transient]
        exact perform_ofExcept _

end

/-- A download from an address of the web sends as many requests as it takes to
an outcome that invites no other, and four at most, and becomes what the last
outcome alone decides; nothing else changes.  From any other address nothing is
requested. -/
theorem run_requests (surroundings : Surroundings) (address : Url)
    (workspace : Workspace) :
    let outcomes := workspace.outcomes surroundings address
    (address.isWeb = true → ∃ count result,
      (∀ other, Stops 4 outcomes other ↔ other = count) ∧
      (∀ other, Settles address (outcomes (count - 1)) other ↔ other = result) ∧
      perform surroundings (run address) workspace =
        (result, { workspace with
          requests :=
            List.replicate count address.text ++ workspace.requests })) ∧
    (address.isWeb = false → perform surroundings (run address) workspace =
      (.error (.network ("builder error for url (" ++ address.requestText ++
        ")")), workspace)) := by
  intro outcomes
  constructor
  · intro isWeb
    obtain ⟨count, stops, performed⟩ := perform_attempt address mostRetries
    refine ⟨count, settle address (outcomes (count - 1)), ?_, fun _ =>
      settles_iff, ?_⟩
    · intro other
      exact ⟨fun also => also.unique stops, fun equal => equal ▸ stops⟩
    · rw [run, check, if_pos isWeb, perform_bind, perform_ofExcept]
      exact performed
  · intro noWeb
    rw [run, check, noWeb, perform_bind, perform_ofExcept]
    rfl

/-- A connection that does not come about and statuses that invite another
request count alike. -/
theorem run_requests_four :
    let surroundings : Surroundings :=
      { run := fun _ files => (.ok { text := "", code := 0 }, files)
        request :=
          fun _ index => [.unreachable, .answered 503 none, .unreachable,
          .answered 429 none, .answered 200 (some ByteArray.empty)].getD
          index .broken }
    let address : Url :=
      { scheme := "http", host := some "h", path := .segments ["x.yml"] }
    perform surroundings (run address) {} =
      (.error (.remoteInclude address.text "status 429 Too Many Requests"),
        { requests := List.replicate 4 address.text }) := by
  intro surroundings address
  obtain ⟨count, result, counted, settled, performed⟩ :=
    (run_requests surroundings address {}).1 (by decide)
  have stops : Stops 4 (Workspace.outcomes {} surroundings address) 4 := by
    refine ⟨by decide, Nat.le_refl 4, fun index early => ?_, .inl rfl⟩
    obtain rfl | rfl | rfl : index = 0 ∨ index = 1 ∨ index = 2 := by omega
    · exact .unreachable
    · exact .serverError none (by decide) (by decide)
    · exact .unreachable
  obtain rfl := (counted 4).mp stops
  obtain rfl := (settled _).mp (.refused (by decide))
  exact performed

end Download

end CiPipeline
