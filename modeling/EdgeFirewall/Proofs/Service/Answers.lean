import EdgeFirewall.Proofs.Json.Records
import EdgeFirewall.Proofs.Text.Numerals
import EdgeFirewall.Service.Poll

/-! # What answers say

What stands in the headers and in the body of an answer, apart from how it is read: a text in a
header (`Response.Says`), the delay that is asked for before the next question
(`Response.AsksFor`), where to ask after an operation (`PollTarget.IsNamedBy`), how an operation
stands (`OperationStatus.IsGivenBy`) and what is wrong (`ServiceError.IsRefusal`). For each of them,
a lemma says that this is what is read. -/

namespace EdgeFirewall

open Http

/-! ### Headers -/

namespace Http

/-- Visible ASCII characters, spaces and tabs. -/
def IsPlainText (text : String) : Prop :=
  ∀ c ∈ text.toList, c = '\t' ∨ ' ' ≤ c ∧ c ≤ '~'

namespace Response

/-- The first header with a name, in capitals or not, has a text. -/
def Says (a : Response) (name text : String) : Prop :=
  ∃ before header after, a.headers = before ++ (header, text) :: after ∧
    Text.eqIgnoringCase header name = true ∧
    (∀ h ∈ before, Text.eqIgnoringCase h.1 name = false) ∧ IsPlainText text

/-- An answer asks for a delay, in milliseconds: its Retry-After is a number of seconds. -/
def AsksFor (a : Response) (delay : Nat) : Prop :=
  ∃ text seconds, a.Says "Retry-After" text ∧ Text.Denotes (Text.trim text) seconds ∧
    seconds < 2 ^ 64 ∧ delay = 1000 * seconds

/-- The delay after an answer: the one that it asks for, or else the interval. -/
def SetsDelay (a : Response) (interval delay : Nat) : Prop :=
  a.AsksFor delay ∨ (∀ asked, ¬ a.AsksFor asked) ∧ delay = interval

variable {a : Response} {name text : String} {interval delay : Nat}

theorem all_isTextChar_iff : text.toList.all isTextChar = true ↔ IsPlainText text := by
  have hchar : ∀ c : Char, isTextChar c = true ↔ c = '\t' ∨ ' ' ≤ c ∧ c ≤ '~' := by
    intro c
    simp only [isTextChar, Bool.or_eq_true, beq_iff_eq, Bool.and_eq_true, decide_eq_true_iff]
    rfl
  simp only [IsPlainText, List.all_eq_true, hchar]

theorem header?_eq_some_iff : a.header? name = some text ↔ a.Says name text := by
  unfold header? Says
  rw [Option.filter_eq_some_iff, all_isTextChar_iff, Option.map_eq_some_iff]
  constructor
  · rintro ⟨⟨⟨header, value⟩, hfind, rfl⟩, htext⟩
    obtain ⟨hname, before, after, heq, hbefore⟩ := List.find?_eq_some_iff_append.mp hfind
    refine ⟨before, header, after, heq, hname, fun h hh => ?_, htext⟩
    have hother := hbefore h hh
    rwa [Bool.not_eq_true'] at hother
  · rintro ⟨before, header, after, heq, hname, hbefore, htext⟩
    refine ⟨⟨(header, text), List.find?_eq_some_iff_append.mpr ?_, rfl⟩, htext⟩
    refine ⟨hname, before, after, heq, fun h hh => ?_⟩
    rw [hbefore h hh]
    rfl

theorem header?_eq_none_iff : a.header? name = none ↔ ∀ text, ¬ a.Says name text := by
  rw [Option.eq_none_iff_forall_ne_some]
  exact forall_congr' fun text => not_congr header?_eq_some_iff

theorem Says.unique {text' : String} (h : a.Says name text) (h' : a.Says name text') :
    text = text' :=
  Option.some.inj ((header?_eq_some_iff.mpr h).symm.trans (header?_eq_some_iff.mpr h'))

theorem says_congr {name' : String} (h : Text.eqIgnoringCase name name' = true) :
    a.Says name text ↔ a.Says name' text := by
  have hlower : Text.lowerAscii name = Text.lowerAscii name' := beq_iff_eq.mp h
  unfold Says Text.eqIgnoringCase
  rw [hlower]

theorem retryAfter?_eq_some_iff : Poll.retryAfter? a = some delay ↔ a.AsksFor delay := by
  have hname : Text.eqIgnoringCase "Retry-After" "retry-after" = true := by decide
  have hlimit : Settings.numberLimit = 2 ^ 64 := by decide
  unfold Poll.retryAfter? AsksFor
  simp only [Option.map_eq_some_iff, Option.bind_eq_some_iff, header?_eq_some_iff, hlimit,
    Text.readNatBelow_eq_some_iff, says_congr hname]
  constructor
  · rintro ⟨seconds, ⟨text, hsays, hseconds, hlimit⟩, rfl⟩
    exact ⟨text, seconds, hsays, hseconds, hlimit, rfl⟩
  · rintro ⟨text, seconds, hsays, hseconds, hlimit, rfl⟩
    exact ⟨seconds, ⟨text, hsays, hseconds, hlimit⟩, rfl⟩

theorem setsDelay_iff :
    a.SetsDelay interval delay ↔ delay = (Poll.retryAfter? a).getD interval := by
  unfold SetsDelay
  simp only [← retryAfter?_eq_some_iff]
  cases Poll.retryAfter? a with
  | none => simp
  | some asked => simp [eq_comm]

end Response

end Http

/-! ### Bodies -/

/-- A document is a detail of an error. -/
def ErrorDetail.IsGivenBy (detail : ErrorDetail) (j : Json) : Prop :=
  ∃ code message, j.IsRecord ["code", "message"] [code, message] ∧
    Json.IsOptional (fun j text => j = .str text) code detail.code ∧
    Json.IsOptional (fun j text => j = .str text) message detail.message

/-- A body is a document about the status of an operation. -/
def OperationStatus.IsGivenBy (o : OperationStatus) (body : String) : Prop :=
  ∃ j error, Json.ofText? body = some j ∧
    j.IsRecord ["status", "error"] [some (.str o.status), error] ∧
    Json.IsOptional (fun j detail => ErrorDetail.IsGivenBy detail j) error o.error

/-- What a body says about an error: the detail in it, or nothing if there is none to be read. -/
inductive ErrorDetail.IsSaidIn (body : String) : ErrorDetail → Prop
  | given {j error : Json} {detail : ErrorDetail} (hj : Json.ofText? body = some j)
      (herror : j.IsRecord ["error"] [some error]) (hdetail : detail.IsGivenBy error) :
      IsSaidIn body detail
  | nothing (h : ∀ j error detail, Json.ofText? body = some j →
      j.IsRecord ["error"] [some error] → ¬ ErrorDetail.IsGivenBy detail error) : IsSaidIn body {}

/-- The error that an answer stands for if its status is not what is expected: with the code and the
message in its body, or else with the body itself. -/
inductive ServiceError.IsRefusal (a : Response) : ServiceError → Prop
  | notFound {detail : ErrorDetail} (hdetail : detail.IsSaidIn a.body) (hstatus : a.status = 404) :
      IsRefusal a (.notFound
        (detail.code.getD "Unknown" ++ ": " ++ detail.message.getD (Text.trim a.body)))
  | status {detail : ErrorDetail} (hdetail : detail.IsSaidIn a.body) (hstatus : a.status ≠ 404) :
      IsRefusal a (.status a.status (detail.code.getD "Unknown")
        (detail.message.getD (Text.trim a.body)))

theorem Json.asText?_eq_some_iff {j : Json} {text : String} :
    j.asText? = some text ↔ j = .str text := by
  cases j <;> simp [asText?]

theorem ErrorDetail.ofJson?_eq_some_iff {j : Json} {detail : ErrorDetail} :
    ofJson? j = some detail ↔ detail.IsGivenBy j := by
  have hnames : ["code", "message"].Nodup := by decide
  unfold ofJson? IsGivenBy
  simp only [Json.isRecord_iff hnames, Option.bind_eq_bind, Option.bind_eq_some_iff,
    Option.pure_def, Option.some.injEq, List.map_cons, List.map_nil, List.cons.injEq, and_true,
    ← Json.asText?_eq_some_iff]
  constructor
  · rintro ⟨r, hr, code, hcode, message, hmessage, rfl⟩
    exact ⟨_, _, ⟨r, hr, rfl, rfl⟩, Json.isOptional_iff.mpr hcode, Json.isOptional_iff.mpr hmessage⟩
  · rintro ⟨_, _, ⟨r, hr, rfl, rfl⟩, hcode, hmessage⟩
    exact ⟨r, hr, _, Json.isOptional_iff.mp hcode, _, Json.isOptional_iff.mp hmessage, rfl⟩

theorem OperationStatus.ofBody?_eq_some_iff {body : String} {o : OperationStatus} :
    ofBody? body = some o ↔ o.IsGivenBy body := by
  have hnames : ["status", "error"].Nodup := by decide
  unfold ofBody? IsGivenBy
  simp only [Json.isRecord_iff hnames, Option.bind_eq_bind, Option.bind_eq_some_iff,
    Option.pure_def, Option.some.injEq, List.map_cons, List.map_nil, List.cons.injEq, and_true,
    Json.Record.required, Json.asText?_eq_some_iff, ← ErrorDetail.ofJson?_eq_some_iff]
  constructor
  · rintro ⟨j, hj, r, hr, status, ⟨_, hstatus, rfl⟩, error, herror, rfl⟩
    exact ⟨j, _, hj, ⟨r, hr, hstatus, rfl⟩, Json.isOptional_iff.mpr herror⟩
  · rintro ⟨j, _, hj, ⟨r, hr, hstatus, rfl⟩, herror⟩
    exact ⟨j, hj, r, hr, _, ⟨_, hstatus, rfl⟩, _, Json.isOptional_iff.mp herror, rfl⟩

theorem OperationStatus.ofBody?_eq_none_iff {body : String} :
    ofBody? body = none ↔ ∀ o, ¬ OperationStatus.IsGivenBy o body := by
  rw [Option.eq_none_iff_forall_ne_some]
  exact forall_congr' fun o => not_congr ofBody?_eq_some_iff

/-- Nothing gives two accounts of an operation. -/
theorem OperationStatus.IsGivenBy.unique {body : String} {o o' : OperationStatus}
    (h : o.IsGivenBy body) (h' : o'.IsGivenBy body) : o = o' :=
  Option.some.inj ((ofBody?_eq_some_iff.mpr h).symm.trans (ofBody?_eq_some_iff.mpr h'))

namespace ErrorDetail

variable {body : String} {detail : ErrorDetail}

/-- The detail that is read in a body, if any. -/
def inBody? (body : String) : Option ErrorDetail :=
  ((Json.ofText? body).bind fun j => (j.record? ["error"]).bind fun r =>
    r.optional "error" ofJson?).getD none

theorem ofBody_eq (body : String) : ofBody body = (inBody? body).getD {} := rfl

theorem not_isGivenBy_null : ¬ detail.IsGivenBy .null := by
  rintro ⟨code, message, hrecord, -⟩
  cases hrecord

theorem inBody?_eq_some_iff : inBody? body = some detail ↔
    ∃ j error, Json.ofText? body = some j ∧ j.IsRecord ["error"] [some error] ∧
      detail.IsGivenBy error := by
  have hnames : ["error"].Nodup := by decide
  have hget : ∀ x : Option (Option ErrorDetail),
      x.getD none = some detail ↔ x = some (some detail) := by
    intro x
    cases x <;> simp
  unfold inBody?
  simp only [hget, Json.isRecord_iff hnames, Option.bind_eq_some_iff, ← Json.isOptional_iff,
    List.map_cons, List.map_nil, List.cons.injEq, and_true, ofJson?_eq_some_iff]
  constructor
  · rintro ⟨j, hj, r, hr, hdetail⟩
    generalize herror : r.lookup "error" = held at hdetail
    cases hdetail with
    | given _ hdetail => exact ⟨j, _, hj, ⟨r, hr, herror⟩, hdetail⟩
  · rintro ⟨j, error, hj, ⟨r, hr, herror⟩, hdetail⟩
    have hnull : error ≠ .null := by
      rintro rfl
      exact not_isGivenBy_null hdetail
    refine ⟨j, hj, r, hr, ?_⟩
    rw [herror]
    exact .given hnull hdetail

theorem isSaidIn_iff : detail.IsSaidIn body ↔ detail = ofBody body := by
  rw [ofBody_eq]
  constructor
  · intro h
    cases h with
    | given hj herror hdetail =>
        rw [inBody?_eq_some_iff.mpr ⟨_, _, hj, herror, hdetail⟩]
        rfl
    | nothing hnothing =>
        have hnone : inBody? body = none := by
          rw [Option.eq_none_iff_forall_ne_some]
          intro detail hdetail
          obtain ⟨j, error, hj, herror, hgiven⟩ := inBody?_eq_some_iff.mp hdetail
          exact hnothing j error detail hj herror hgiven
        rw [hnone]
        rfl
  · rintro rfl
    cases hread : inBody? body with
    | some detail =>
        obtain ⟨j, error, hj, herror, hdetail⟩ := inBody?_eq_some_iff.mp hread
        exact .given hj herror hdetail
    | none =>
        refine .nothing fun j error detail hj herror hdetail => ?_
        rw [inBody?_eq_some_iff.mpr ⟨j, error, hj, herror, hdetail⟩] at hread
        exact absurd hread (by simp)

end ErrorDetail

namespace ServiceError

variable {a : Response} {e : ServiceError}

theorem isRefusal_iff : e.IsRefusal a ↔ e = ofStatus a.status a.body := by
  unfold ofStatus
  dsimp only
  constructor
  · intro h
    cases h with
    | notFound hdetail hstatus =>
        rw [if_pos hstatus, ErrorDetail.isSaidIn_iff.mp hdetail]
        rfl
    | status hdetail hstatus => rw [if_neg hstatus, ErrorDetail.isSaidIn_iff.mp hdetail]
  · rintro rfl
    have hdetail := ErrorDetail.isSaidIn_iff.mpr (rfl : ErrorDetail.ofBody a.body = _)
    split
    · next hstatus => exact .notFound hdetail hstatus
    · next hstatus => exact .status hdetail hstatus

theorem isNotFound_ofStatus (status : Nat) (body : String) :
    (ServiceError.ofStatus status body).isNotFound = true ↔ status = 404 := by
  unfold ofStatus
  dsimp only
  split
  · next h => simp [h, isNotFound]
  · next h => simp [h, isNotFound]

end ServiceError

/-! ### Operations -/

/-- An answer names where to ask after an operation: at a status document, or if it names none and
has the status 202, at a location. -/
inductive PollTarget.IsNamedBy (a : Response) : PollTarget → Prop
  | statusDocument {url : String} (h : a.Says "Azure-AsyncOperation" url) :
      IsNamedBy a (.statusDocument url)
  | location {url : String} (hstatus : ∀ url, ¬ a.Says "Azure-AsyncOperation" url)
      (haccepted : a.status = 202) (h : a.Says "Location" url) : IsNamedBy a (.location url)

/-- The target that an answer names, if any. -/
def PollTarget.ofResponse? (a : Response) : Option PollTarget :=
  match a.header? "azure-asyncoperation" with
  | some url => some (.statusDocument url)
  | none => if a.status = 202 then (a.header? "location").map .location else none

theorem PollTarget.ofResponse?_eq_some_iff {a : Response} {target : PollTarget} :
    ofResponse? a = some target ↔ target.IsNamedBy a := by
  have hstatus : Text.eqIgnoringCase "Azure-AsyncOperation" "azure-asyncoperation" = true := by
    decide
  have hlocation : Text.eqIgnoringCase "Location" "location" = true := by decide
  unfold ofResponse?
  constructor
  · intro h
    split at h
    · next url hurl =>
        obtain rfl := Option.some.inj h
        exact .statusDocument ((Response.says_congr hstatus).mpr
          (Response.header?_eq_some_iff.mp hurl))
    · next hnone =>
        obtain ⟨haccepted, h⟩ := Option.ite_none_right_eq_some.mp h
        obtain ⟨url, hurl, rfl⟩ := Option.map_eq_some_iff.mp h
        refine .location (fun url hsays => ?_) haccepted ((Response.says_congr hlocation).mpr
          (Response.header?_eq_some_iff.mp hurl))
        exact Response.header?_eq_none_iff.mp hnone url ((Response.says_congr hstatus).mp hsays)
  · intro h
    cases h with
    | statusDocument h =>
        rw [Response.header?_eq_some_iff.mpr ((Response.says_congr hstatus).mp h)]
    | location hnone haccepted h =>
        have hnone' : a.header? "azure-asyncoperation" = none :=
          Response.header?_eq_none_iff.mpr fun url hsays =>
            hnone url ((Response.says_congr hstatus).mpr hsays)
        rw [hnone', if_pos haccepted,
          Response.header?_eq_some_iff.mpr ((Response.says_congr hlocation).mp h)]
        rfl

namespace Poller

variable {poll : PollSettings} {a : Response} {p : Poller}

theorem ofResponse?_eq (poll : PollSettings) (a : Response) : ofResponse? poll a =
    (PollTarget.ofResponse? a).map fun t => ⟨t, (Poll.retryAfter? a).getD poll.interval⟩ := rfl

/-- What is asked after, and when for the first time, is what the answer says. -/
theorem ofResponse?_eq_some_iff : ofResponse? poll a = some p ↔
    p.target.IsNamedBy a ∧ a.SetsDelay poll.interval p.nextDelay := by
  rw [ofResponse?_eq, Option.map_eq_some_iff]
  simp only [PollTarget.ofResponse?_eq_some_iff, Response.setsDelay_iff]
  constructor
  · rintro ⟨target, htarget, rfl⟩
    exact ⟨htarget, rfl⟩
  · rintro ⟨htarget, hdelay⟩
    exact ⟨p.target, htarget, by rw [← hdelay]⟩

theorem ofResponse?_eq_none_iff :
    ofResponse? poll a = none ↔ ∀ target : PollTarget, ¬ target.IsNamedBy a := by
  rw [ofResponse?_eq, Option.map_eq_none_iff, Option.eq_none_iff_forall_ne_some]
  exact forall_congr' fun target => not_congr PollTarget.ofResponse?_eq_some_iff

end Poller

end EdgeFirewall
