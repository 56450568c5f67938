import WalletAuth.Proofs.Api.Login

/-! The gate over a sequence of requests. What stands behind it is asked exactly the requests that show
the secret, each once and in their order, whatever it does with them and however it keeps its state. -/

namespace WalletAuth.ConnectionGate

open Http (Request Response)
open Server (Answers)

variable {gate : ConnectionGate} {request : Request}

/-! ### One request -/

/-- Whether a request shows the secret. The empty secret is shown by none. -/
def Admits (gate : ConnectionGate) (request : Request) : Prop :=
  gate.secret ≠ "" ∧ request.headers.first? "token" = some (Bytes.ofString gate.secret)

instance : DecidablePred gate.Admits :=
  fun _ => inferInstanceAs (Decidable (_ ∧ _))

/-- Why a request is refused that does not show the secret. -/
def refusal : Option Request → AccessError
  | none => .internal "request is missing"
  | some request =>
    match request.headers.first? "token" with
    | none => .missingToken
    | some [] => .missingToken
    | some _ => .invalidConnectionToken

theorem authorize_of_admits (h : gate.Admits request) :
    gate.authorize request.headers = .ok () := by
  obtain ⟨hne, hfirst⟩ := h
  have hbytes : Bytes.ofString gate.secret ≠ [] := mt Bytes.ofString_eq_nil_iff.mp hne
  rw [authorize, tokenName, hfirst]
  cases hsecret : Bytes.ofString gate.secret with
  | nil => exact absurd hsecret hbytes
  | cons char chars => exact if_pos rfl

theorem authorize_of_not_admits (h : ¬gate.Admits request) :
    gate.authorize request.headers = .error (refusal (some request)) := by
  rw [authorize, tokenName, refusal]
  rcases hfirst : request.headers.first? "token" with _ | _ | ⟨char, chars⟩
  · rfl
  · rfl
  · -- The secret would not be empty if it was this value.
    refine if_neg fun hvalue => h ⟨fun hempty => ?_, hfirst.trans (congrArg some hvalue)⟩
    rw [hempty] at hvalue
    exact absurd hvalue (List.cons_ne_nil char chars)

theorem not_admits_of_missing
    (h : request.headers.first? "token" = none ∨ request.headers.first? "token" = some []) :
    ¬gate.Admits request := by
  rintro ⟨hne, hsecret⟩
  rw [hsecret, Option.some.injEq] at h
  rcases h with hfirst | hempty
  · exact Option.some_ne_none _ hfirst
  · exact hne (Bytes.ofString_eq_nil_iff.mp hempty)

theorem refusal_of_missing
    (h : request.headers.first? "token" = none ∨ request.headers.first? "token" = some []) :
    refusal (some request) = .missingToken := by
  rw [refusal]
  rcases h with hfirst | hfirst
  · rw [hfirst]
  · rw [hfirst]

theorem refusal_of_first {value : Bytes} (hfirst : request.headers.first? "token" = some value)
    (hne : value ≠ []) : refusal (some request) = .invalidConnectionToken := by
  rw [refusal, hfirst]
  cases value with
  | nil => exact absurd rfl hne
  | cons char chars => rfl

section Step

variable {m : Type → Type} [Monad m] (next : Request → m Response)

theorem guard_of_admits (h : gate.Admits request) : gate.guard (some request) next = next request := by
  rw [guard, authorize_of_admits h]

theorem guard_of_not_admits (h : ¬gate.Admits request) :
    gate.guard (some request) next = pure (refusal (some request)).response := by
  rw [guard, authorize_of_not_admits h]

theorem guard_of_filter_eq_none {request : Option Request}
    (h : request.filter (fun request => gate.Admits request) = none) :
    gate.guard request next = pure (refusal request).response := by
  cases request with
  | none => rfl
  | some request => exact guard_of_not_admits next (by simpa using h)

end Step

/-! ### All requests -/

/-- The requests that show the secret, in their order. -/
def admitted (gate : ConnectionGate) (requests : List (Option Request)) : List Request :=
  requests.filterMap (Option.filter fun request => gate.Admits request)

theorem admitted_eq_nil (h : gate.secret = "") (requests : List (Option Request)) :
    gate.admitted requests = [] := by
  rw [admitted, List.filterMap_eq_nil_iff]
  intro request _
  rw [Option.filter_eq_none_iff]
  exact fun request _ => by simp [Admits, h]

def guardAll {m : Type → Type} [Monad m] (gate : ConnectionGate) (requests : List (Option Request))
    (next : Request → m Response) : m (List Response) :=
  requests.mapM fun request => gate.guard request next

/-! ### Runs -/

section Runs

variable {σ : Type} (next : Request → StateM σ Response)

theorem guardAll_cons (request : Option Request) (requests : List (Option Request)) (state : σ) :
    (gate.guardAll (request :: requests) next).run state =
      let answered := (gate.guard request next).run state
      let rest := (gate.guardAll requests next).run answered.2
      (answered.1 :: rest.1, rest.2) := by
  rw [guardAll, List.mapM_cons]
  rfl

theorem guardAll_append (before later : List (Option Request)) (state : σ) :
    (gate.guardAll (before ++ later) next).run state =
      let answered := (gate.guardAll before next).run state
      let rest := (gate.guardAll later next).run answered.2
      (answered.1 ++ rest.1, rest.2) := by
  rw [guardAll, List.mapM_append]
  rfl

theorem length_guardAll (requests : List (Option Request)) (state : σ) :
    ((gate.guardAll requests next).run state).1.length = requests.length := by
  induction requests generalizing state with
  | nil => rfl
  | cons request requests ih =>
      rw [guardAll_cons, List.length_cons]
      exact congrArg (· + 1) (ih _)

/-- The response to a request is the one that the gate gives it after all that came before. -/
theorem getElem?_guardAll (before : List (Option Request)) (request : Option Request)
    (later : List (Option Request)) (state : σ) :
    ((gate.guardAll (before ++ request :: later) next).run state).1[before.length]? =
      some ((gate.guard request next).run ((gate.guardAll before next).run state).2).1 := by
  have hlength : ((gate.guardAll before next).run state).1.length = before.length :=
    length_guardAll next before state
  simp only [guardAll_append, guardAll_cons]
  rw [List.getElem?_append_right hlength.le, hlength, Nat.sub_self]
  rfl

end Runs

section Recorded

variable {World : Type} (next : Request → StateM World Response)

/-- Keeps a record of the requests that are asked. -/
def recorded (request : Request) : StateM (List Request × World) Response :=
  fun (asked, world) =>
    let (response, world) := next request world
    (response, asked ++ [request], world)

/-- What was asked and what came of it, after a run from any state. -/
theorem guardAll_snd (requests : List (Option Request)) (asked : List Request) (world : World) :
    ((gate.guardAll requests (recorded next)).run (asked, world)).2 =
      (asked ++ gate.admitted requests, (((gate.admitted requests).mapM next).run world).2) := by
  induction requests generalizing asked world with
  | nil => exact congrArg (·, world) (List.append_nil asked).symm
  | cons request requests ih =>
      rw [guardAll_cons]
      cases hshown : request.filter fun request => gate.Admits request with
      | none =>
          rw [guard_of_filter_eq_none _ hshown, admitted, List.filterMap_cons_none hshown]
          exact ih asked world
      | some shown =>
          obtain ⟨rfl, hadmits⟩ := Option.filter_eq_some_iff.mp hshown
          rw [guard_of_admits _ (of_decide_eq_true hadmits), admitted,
            List.filterMap_cons_some hshown, List.mapM_cons, List.append_cons]
          exact ih (asked ++ [shown]) (next shown world).2

end Recorded

/-- What stands behind the gate is asked exactly the requests whose first field for the secret has its
bytes, each once and in their order, and nothing else happens to it; no request has the empty secret.
So whenever a request comes, it has been asked as often as the secret was shown before. Its own
response is the one to a request that shows the secret. A request that is not there is answered with
an internal error; if the first field is missing or empty, the secret is asked for, and anything else
is refused as not the secret. -/
theorem guardAll_recorded (gate : ConnectionGate) {World : Type}
    (next : Request → StateM World Response) (world : World) (before : List (Option Request)) :
    let run (requests : List (Option Request)) :=
      (gate.guardAll requests (recorded next)).run ([], world)
    (run before).2 = (gate.admitted before, (((gate.admitted before).mapM next).run world).2) ∧
    (gate.secret = "" → gate.admitted before = []) ∧
    ∀ request later, ∃ response,
      (run (before ++ request :: later)).1[before.length]? = some response ∧
      (∀ shown, request = some shown → gate.Admits shown →
        response = ((next shown).run (run before).2.2).1) ∧
      (request = none → Answers response 500
        (.object [("error", .text "Internal authentication error: request is missing"),
          ("error_code", .text "internal_error")])) ∧
      (∀ refused, request = some refused →
        refused.headers.first? "token" = none ∨ refused.headers.first? "token" = some [] →
        Answers response 401
          (.object [("error", .text "Authentication token is required"),
            ("error_code", .text "missing_token")])) ∧
      ∀ refused value, request = some refused → refused.headers.first? "token" = some value →
        value ≠ [] → ¬gate.Admits refused →
        Answers response 401
          (.object [("error", .text "Connection token is invalid"),
            ("error_code", .text "invalid_connection_token")]) := by
  intro run
  refine ⟨guardAll_snd next before [] world, fun h => admitted_eq_nil h before, ?_⟩
  intro request later
  refine ⟨_, getElem?_guardAll (recorded next) before request later ([], world), ?_, ?_, ?_, ?_⟩
  · rintro shown rfl hadmits
    rw [guard_of_admits _ hadmits]
    rfl
  · rintro rfl
    exact (Server.states_response (.internal "request is missing")).answers_error
  · rintro refused rfl hmissing
    rw [guard_of_not_admits _ (not_admits_of_missing hmissing), refusal_of_missing hmissing]
    exact (Server.states_response .missingToken).answers_error
  · rintro refused value rfl hfirst hne hnot
    rw [guard_of_not_admits _ hnot, refusal_of_first hfirst hne]
    exact (Server.states_response .invalidConnectionToken).answers_error

/-- The secret, nothing, the secret in another case, and the secret once more. -/
theorem guardAll_recorded_alternating :
    let shows (token : String) : Request :=
      ⟨.get, ⟨[47], none⟩, [⟨"token", Bytes.ofString token⟩], []⟩
    let next : Request → StateM Nat Response := fun _ count => (.empty (200 + count), count + 1)
    let run := (guardAll ⟨"k"⟩ [some (shows "k"), none, some (shows "K"), some (shows "k")]
      (recorded next)).run ([], 0)
    run.2 = ([shows "k", shows "k"], 2) ∧ run.1[3]? = some (.empty 201) ∧
      ∃ response, run.1[2]? = some response ∧ Answers response 401
        (.object [("error", .text "Connection token is invalid"),
          ("error_code", .text "invalid_connection_token")]) := by
  intro shows next run
  obtain ⟨hstate, -⟩ := guardAll_recorded ⟨"k"⟩ next 0
    [some (shows "k"), none, some (shows "K"), some (shows "k")]
  obtain ⟨-, -, hthird⟩ := guardAll_recorded ⟨"k"⟩ next 0
    [some (shows "k"), none, some (shows "K")]
  obtain ⟨-, -, hsecond⟩ := guardAll_recorded ⟨"k"⟩ next 0 [some (shows "k"), none]
  obtain ⟨last, hlast, hshown, -⟩ := hthird (some (shows "k")) []
  obtain ⟨response, hresponse, -, -, -, hrefused⟩ := hsecond (some (shows "K")) [some (shows "k")]
  have hadmits : Admits ⟨"k"⟩ (shows "k") := by decide
  have hnot : ¬Admits ⟨"k"⟩ (shows "K") := by decide
  refine ⟨hstate, ?_, response, hresponse, hrefused _ _ rfl rfl (by decide) hnot⟩
  exact hlast.trans (congrArg some (hshown _ rfl hadmits))

end WalletAuth.ConnectionGate
