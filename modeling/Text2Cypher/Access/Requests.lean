import Mathlib.Data.List.Sort
import Text2Cypher.Chat.FailureRecord
import Text2Cypher.Library.Interleaving
import Text2Cypher.Reviews.FailureReview

/-!
# Requests of users

The endpoints that log users in, keep their conversations and let administrators review failures.
A request is a party: it is authenticated, and then executes its statements one at a time.  Each of
them commits in a transaction of its own, so a statement and its `COMMIT` are one step.

What the graph makes of a question is given with the request.  Accounts are managed by hand, and
the server may return the rows of a table in any order: both are moves of the environment
(`OthersStep`).  Requests that are not valid, events, metrics and logs are left out.

* `statement`, `advance`: one step of a request;
* `Written`, `Passes`: what a step writes, and what comes next.
-/

namespace Access

open Chat
open FailureReviews (FailureReview Call)

/-! ### Tables -/

/-- A row of `app.users`. -/
structure Account where
  username : String
  passwordHash : String
  role : String

structure CurrentUser where
  username : String
  role : String
  deriving DecidableEq

/-- The payload of a token. -/
structure Claims where
  sub : String
  role : String
  exp : ℕ
  deriving DecidableEq

/-- `EXPIRE_HOURS`, in seconds. -/
def expireSeconds : ℕ := 24 * 60 * 60

/-- A row of `app.conversation_history`. -/
structure Row (W R : Type) where
  id : ℕ
  conversation : Conversation W R
  createdAt : ℕ
  deriving DecidableEq

/-- A row of `app.query_failure_reviews`. -/
structure ReviewRow where
  reviewId : ℕ
  conversationId : ℕ
  record : FailureRecord
  review : FailureReview
  createdAt : ℕ

/-- The tables with their sequences, and the payloads of the tokens that have been signed. -/
structure Database (W R : Type) where
  accounts : List Account
  conversations : List (Row W R)
  nextConversation : ℕ
  reviews : List ReviewRow
  nextReview : ℕ
  issued : List Claims

variable {T W R : Type}

/-! ### Statements -/

/-- The rows that a user may see: all for an administrator, and otherwise the user's own. -/
def visible (user : CurrentUser) (row : Row W R) : Bool :=
  user.role = "admin" || row.conversation.username = user.username

/-- `save_conversation`, with the id; the table refuses a user without an account. -/
def Database.saveConversation (d : Database W R) (conversation : Conversation W R) (now : ℕ) :
    Database W R × Option ℕ :=
  if conversation.username ∈ d.accounts.map Account.username then
    ({ d with
        conversations := d.conversations ++ [⟨d.nextConversation, conversation, now⟩]
        nextConversation := d.nextConversation + 1 }, some d.nextConversation)
  else ({ d with nextConversation := d.nextConversation + 1 }, none)

/-- `list_history`. -/
def Database.listHistory (d : Database W R) (user : CurrentUser) : List (Row W R) :=
  (d.conversations.filter (visible user)).insertionSort fun row row' =>
    row'.createdAt ≤ row.createdAt

/-- The rows that `delete_conversation` deletes. -/
def deletes (user : CurrentUser) (historyId : ℤ) (row : Row W R) : Bool :=
  (row.id : ℤ) = historyId && visible user row

/-- `delete_conversation`, which deletes the reviews of the rows with them. -/
def Database.deleteConversation (d : Database W R) (user : CurrentUser) (historyId : ℤ) :
    Database W R × Bool :=
  let deleted := d.conversations.filter (deletes user historyId)
  ({ d with
      conversations := d.conversations.filter fun row => !deletes user historyId row
      reviews := d.reviews.filter fun review => review.conversationId ∉ deleted.map Row.id },
    !deleted.isEmpty)

/-- `create_failure_review`: the checks of the row come first, then the conflict that becomes an
update, and then the references and the other unique column. -/
def Database.createFailureReview (d : Database W R) (conversationId : ℕ) (record : FailureRecord)
    (now : ℕ) : Database W R :=
  let next := { d with nextReview := d.nextReview + 1 }
  if ¬ record.Accepted then next
  else if conversationId ∈ d.reviews.map ReviewRow.conversationId then
    { next with
      reviews := d.reviews.map fun row =>
        if row.conversationId = conversationId then
          { row with review := { row.review with updatedAt := now } }
        else row }
  else if conversationId ∈ d.conversations.map Row.id ∧
      record.requestId ∉ d.reviews.map (·.record.requestId) then
    { next with
      reviews := d.reviews ++ [⟨d.nextReview, conversationId, record, .created now, now⟩] }
  else next

/-- The query of `list_failure_reviews`. -/
structure ReviewFilter where
  status : Option String
  classification : Option String
  route : Option String
  tool : Option String
  issueCode : Option String
  dateFrom : Option ℕ
  dateTo : Option ℕ
  page : ℕ
  pageSize : ℕ

/-- The clauses of the `WHERE`. -/
def ReviewFilter.selects (filter : ReviewFilter) (row : ReviewRow) : Bool :=
  filter.status.all (fun status => row.review.value .status = some status) &&
  filter.classification.all (fun value => row.review.value .classification = some value) &&
  filter.route.all (fun route => row.record.route = route) &&
  filter.tool.all (fun tool => row.record.failedTool = some tool) &&
  filter.issueCode.all (fun code => row.record.issueCode = code) &&
  filter.dateFrom.all (fun time => time ≤ row.createdAt) &&
  filter.dateTo.all (fun time => row.createdAt ≤ time)

/-- The page of the reviews; the columns that editors fill with free text are not listed. -/
def Database.listReviews (d : Database W R) (filter : ReviewFilter) : List ReviewRow :=
  (((d.reviews.filter filter.selects).insertionSort fun row row' =>
    row'.createdAt ≤ row.createdAt).drop ((filter.page - 1) * filter.pageSize)).take filter.pageSize

/-- `get_failure_review`: the review, and the conversation that it is about. -/
def Database.getFailureReview (d : Database W R) (reviewId : ℤ) :
    Option (ReviewRow × Row W R) :=
  (d.reviews.find? fun row => (row.reviewId : ℤ) = reviewId).bind fun review =>
    (d.conversations.find? fun row => row.id = review.conversationId).map fun row => (review, row)

/-- The row that the `WHERE` of `update_failure_review` names. -/
def names (reviewId : ℤ) (call : Call) (row : ReviewRow) : Bool :=
  (row.reviewId : ℤ) = reviewId && row.review.version = call.version

/-- The `UPDATE` of `update_failure_review`; `none` if the table refuses the row. -/
def Database.updateFailureReview (d : Database W R) (reviewId : ℤ) (call : Call) (now : ℕ) :
    Option (Database W R × Bool) :=
  let written (row : ReviewRow) := { row with review := row.review.updated call.clean now }
  let named := d.reviews.filter (names reviewId call)
  if named.all fun row => (written row).review.accepted then
    some ({ d with
        reviews := d.reviews.map fun row => if names reviewId call row then written row else row },
      !named.isEmpty)
  else none

/-! ### Requests -/

/-- `bcrypt` and `PyJWT`, with the key of the server. -/
structure Crypto (T : Type) where
  checkpw : String → String → Bool
  /-- `_DUMMY_HASH` -/
  dummyHash : String
  encode : Claims → T
  /-- at a time; `none` where it raises -/
  decode : ℕ → T → Option Claims

/-- What `PyJWT` promises: a token that is accepted is signed with the key, and has not expired. -/
structure Crypto.Sound (crypto : Crypto T) : Prop where
  signed : ∀ {now token claims}, crypto.decode now token = some claims →
    token = crypto.encode claims
  expires : ∀ {now token claims}, crypto.decode now token = some claims → now < claims.exp

inductive Request (T W R : Type)
  | login (username password : String)
  /-- with what becomes of the question, unless an exception is raised -/
  | chat (token : Option T) (requestId questionFingerprint : String)
      (outcome : Option (ChatResponse W R × Option QueryFailure))
  | history (token : Option T)
  | deleteHistory (token : Option T) (historyId : ℤ)
  | reviews (token : Option T) (filter : ReviewFilter)
  | reviewDetail (token : Option T) (reviewId : ℤ)
  | patchReview (token : Option T) (reviewId : ℤ) (call : Call)

inductive Response (T W R : Type)
  | loggedIn (user : CurrentUser) (token : T)
  /-- 401 -/
  | unauthorized
  /-- 403 -/
  | forbidden
  /-- 404 -/
  | notFound
  /-- 409 -/
  | conflict
  /-- 500 -/
  | serverError
  | chat (response : ChatResponse W R)
  | history (rows : List (Row W R))
  | deleted
  | reviews (items : List ReviewRow) (total : ℕ)
  | review (review : ReviewRow) (conversation : Row W R)

/-- What a request does next. -/
inductive Progress (T W R : Type)
  | start
  | save (user : CurrentUser)
  | record (conversationId : ℕ) (record : FailureRecord)
  | list (user : CurrentUser)
  | delete (user : CurrentUser)
  | countReviews
  | listReviews (total : ℕ)
  | detail
  | patch
  | readBack
  | done (response : Response T W R)

def Request.token : Request T W R → Option T
  | .login .. => none
  | .chat token .. | .history token | .deleteHistory token _ | .reviews token _
  | .reviewDetail token _ | .patchReview token .. => token

/-- The endpoints that depend on `require_admin`. -/
def Request.requiresAdmin : Request T W R → Bool
  | .reviews .. | .reviewDetail .. | .patchReview .. => true
  | .login .. | .chat .. | .history .. | .deleteHistory .. => false

/-- `get_current_user`. -/
def currentUser (crypto : Crypto T) (now : ℕ) (token : Option T) : Option CurrentUser :=
  (token.bind (crypto.decode now)).map fun claims => ⟨claims.sub, claims.role⟩

/-- The first statement of a request whose user is known. -/
def Request.first (user : CurrentUser) : Request T W R → Progress T W R
  | .login .. | .chat _ _ _ none => .done .serverError
  | .chat _ _ _ (some _) => .save user
  | .history _ => .list user
  | .deleteHistory .. => .delete user
  | .reviews .. => .countReviews
  | .reviewDetail .. => .detail
  | .patchReview _ _ call => if call.clean.isEmpty then .readBack else .patch

/-- `login`. -/
def login (crypto : Crypto T) (username password : String) (now : ℕ) (d : Database W R) :
    Database W R × Progress T W R :=
  let account := d.accounts.find? fun account => account.username = username
  let passwordHash := (account.map Account.passwordHash).getD crypto.dummyHash
  let passwordOk := crypto.checkpw password passwordHash
  match account with
  | none => (d, .done .unauthorized)
  | some account =>
      if passwordOk then
        let claims : Claims := ⟨account.username, account.role, now + expireSeconds⟩
        ({ d with issued := d.issued ++ [claims] },
          .done (.loggedIn ⟨account.username, account.role⟩ (crypto.encode claims)))
      else (d, .done .unauthorized)

/-- The dependencies of an endpoint. -/
def authenticate (crypto : Crypto T) (request : Request T W R) (now : ℕ) : Progress T W R :=
  match currentUser crypto now request.token with
  | none => .done .unauthorized
  | some user =>
      if request.requiresAdmin ∧ user.role ≠ "admin" then .done .forbidden
      else request.first user

/-- What is done with a request that has come. -/
def begin (crypto : Crypto T) (request : Request T W R) (now : ℕ) (d : Database W R) :
    Database W R × Progress T W R :=
  match request with
  | .login username password => login crypto username password now d
  | _ => (d, authenticate crypto request now)

/-- The response after an exception: `chat` catches those of its statements. -/
def onException (request : Request T W R) : Progress T W R → Progress T W R
  | .save _ | .record .. =>
      match request with
      | .chat _ _ _ (some (response, _)) => .done (.chat response)
      | _ => .done .serverError
  | _ => .done .serverError

/-- What the statement of a request leaves, and what comes next. -/
def statement (lower : String → String) (request : Request T W R) (d : Database W R) (now : ℕ)
    (p : Progress T W R) : Database W R × Progress T W R :=
  match p, request with
  | .save user, .chat _ requestId questionFingerprint (some (response, queryFailure)) =>
      match d.saveConversation (toConversation user.username response) now with
      | (d', none) => (d', .done (.chat response))
      | (d', some conversationId) =>
          match recordOf lower requestId questionFingerprint queryFailure response with
          | none => (d', .done (.chat response))
          | some record => (d', .record conversationId record)
  | .record conversationId record, request =>
      (d.createFailureReview conversationId record now, onException request p)
  | .list user, _ => (d, .done (.history (d.listHistory user)))
  | .delete user, .deleteHistory _ historyId =>
      let result := d.deleteConversation user historyId
      (result.1, .done (if result.2 then .deleted else .notFound))
  | .countReviews, .reviews _ filter => (d, .listReviews (d.reviews.countP filter.selects))
  | .listReviews total, .reviews _ filter => (d, .done (.reviews (d.listReviews filter) total))
  | .detail, .reviewDetail _ reviewId =>
      (d, .done (((d.getFailureReview reviewId).map fun found => .review found.1 found.2).getD
        .notFound))
  | .patch, .patchReview _ reviewId call =>
      match d.updateFailureReview reviewId call now with
      | none => (d, .done .serverError)
      | some (d', updated) => (d', if updated then .readBack else .done .conflict)
  | .readBack, .patchReview _ reviewId _ =>
      (d, .done (((d.getFailureReview reviewId).map fun found => .review found.1 found.2).getD
        .conflict))
  | _, _ => (d, .done .serverError)

/-- What a request hears of a step: it is done at a time, it is done but the answer does not arrive,
or it is not done. -/
inductive Reply
  | ok (now : ℕ)
  | lost (now : ℕ)
  | error
  deriving DecidableEq, Repr

/-- **One step of a request.** -/
def advance (crypto : Crypto T) (lower : String → String) (request : Request T W R) (reply : Reply) :
    Database W R × Progress T W R → Database W R × Progress T W R
  | (d, .done response) => (d, .done response)
  | (d, .start) =>
      match reply with
      | .ok now => begin crypto request now d
      | .lost _ | .error => (d, .done .serverError)
  | (d, p) =>
      match reply with
      | .ok now => statement lower request d now p
      | .lost now => ((statement lower request d now p).1, onException request p)
      | .error => (d, onException request p)

/-- Nobody but the server can sign a token. -/
def Presentable (crypto : Crypto T) (request : Request T W R) (d : Database W R) : Prop :=
  ∀ claims, request.token = some (crypto.encode claims) → claims ∈ d.issued

variable {ι : Type}

/-- The step that a request takes next. -/
def RequestStep (crypto : Crypto T) (lower : String → String) (request : ι → Request T W R) (i : ι)
    (reply : Reply) (state next : Database W R × Progress T W R) : Prop :=
  (∀ response, state.2 ≠ .done response) ∧
    (state.2 = .start → Presentable crypto (request i) state.1) ∧
    next = advance crypto lower (request i) reply state

/-- What else may happen to the database. -/
def OthersStep (d d' : Database W R) : Prop :=
  d'.conversations.Perm d.conversations ∧ d'.reviews.Perm d.reviews ∧
    d.nextConversation ≤ d'.nextConversation ∧ d.nextReview ≤ d'.nextReview ∧
    d'.issued = d.issued

/-! ### What a step does -/

/-- The time of a step that is done. -/
def Reply.time? : Reply → Option ℕ
  | .ok now | .lost now => some now
  | .error => none

section

variable (crypto : Crypto T) (request : Request T W R) (reply : Reply)

/-- What a step leaves of the database. -/
inductive Written (d : Database W R) : Progress T W R → Database W R → Prop
  | same {p : Progress T W R} : Written d p d
  | issued {now : ℕ} {account : Account} {password : String} (hreply : reply = .ok now)
      (hrequest : request = .login account.username password) (hmem : account ∈ d.accounts)
      (hpassword : crypto.checkpw password account.passwordHash = true) :
      Written d .start { d with
        issued := d.issued ++ [⟨account.username, account.role, now + expireSeconds⟩] }
  | saved {now : ℕ} {user : CurrentUser} {token : Option T} {requestId fingerprint : String}
      {response : ChatResponse W R} {queryFailure : Option QueryFailure}
      (hreply : reply.time? = some now)
      (hrequest : request = .chat token requestId fingerprint (some (response, queryFailure))) :
      Written d (.save user) { d with
        conversations := d.conversations ++
          [⟨d.nextConversation, toConversation user.username response, now⟩]
        nextConversation := d.nextConversation + 1 }
  | skipped {user : CurrentUser} :
      Written d (.save user) { d with nextConversation := d.nextConversation + 1 }
  | recorded {now conversationId : ℕ} {record : FailureRecord} :
      Written d (.record conversationId record) (d.createFailureReview conversationId record now)
  | deleted {user : CurrentUser} {token : Option T} {historyId : ℤ} {now : ℕ}
      (hreply : reply.time? = some now) (hrequest : request = .deleteHistory token historyId) :
      Written d (.delete user) (d.deleteConversation user historyId).1
  | updated {reviewId : ℤ} {call : Call} {now : ℕ} {d' : Database W R} {updated : Bool}
      (hupdate : d.updateFailureReview reviewId call now = some (d', updated)) :
      Written d .patch d'

/-- A response that says something of the tables. -/
def Response.Tells : Response T W R → Prop
  | .loggedIn .. | .history _ | .deleted | .reviews .. | .review .. => True
  | .unauthorized | .forbidden | .notFound | .conflict | .serverError | .chat _ => False

/-- What comes next. -/
inductive Passes (d : Database W R) : Progress T W R → Progress T W R → Prop
  | entered {now : ℕ} {user : CurrentUser} (hreply : reply = .ok now)
      (huser : currentUser crypto now request.token = some user)
      (hadmin : request.requiresAdmin = true → user.role = "admin") :
      Passes d .start (request.first user)
  | loggedIn {now : ℕ} {account : Account} {password : String} (hreply : reply = .ok now)
      (hrequest : request = .login account.username password) (hmem : account ∈ d.accounts)
      (hpassword : crypto.checkpw password account.passwordHash = true) :
      Passes d .start (.done (.loggedIn ⟨account.username, account.role⟩
        (crypto.encode ⟨account.username, account.role, now + expireSeconds⟩)))
  | record {user : CurrentUser} {token : Option T} {requestId fingerprint : String}
      {response : ChatResponse W R} {queryFailure : Option QueryFailure} {record : FailureRecord}
      (hrequest : request = .chat token requestId fingerprint (some (response, queryFailure)))
      (hrequestId : record.requestId = requestId) :
      Passes d (.save user) (.record d.nextConversation record)
  | history {now : ℕ} {user : CurrentUser} (hreply : reply = .ok now) :
      Passes d (.list user) (.done (.history (d.listHistory user)))
  | deleted {user : CurrentUser} {token : Option T} {historyId : ℤ} {now : ℕ}
      (hreply : reply = .ok now) (hrequest : request = .deleteHistory token historyId)
      (hdeleted : (d.deleteConversation user historyId).2 = true) :
      Passes d (.delete user) (.done .deleted)
  | counted {total : ℕ} : Passes d .countReviews (.listReviews total)
  | reviews {items : List ReviewRow} {total : ℕ} :
      Passes d (.listReviews total) (.done (.reviews items total))
  | readBack : Passes d .patch .readBack
  | review {p : Progress T W R} {review : ReviewRow} {row : Row W R}
      (hp : p = .detail ∨ p = .readBack) : Passes d p (.done (.review review row))
  | ended {p : Progress T W R} {response : Response T W R} (hquiet : ¬ response.Tells) :
      Passes d p (.done response)

end

variable {crypto : Crypto T} {lower : String → String} {request : Request T W R} {reply : Reply}

theorem passes_onException (d : Database W R) (p : Progress T W R) :
    Passes crypto request reply d p (onException request p) := by
  unfold onException
  split
  · split <;> exact .ended nofun
  · split <;> exact .ended nofun
  · exact .ended nofun

theorem login_eq {username password : String} {now : ℕ} {d : Database W R} :
    (∃ account ∈ d.accounts, account.username = username ∧
      crypto.checkpw password account.passwordHash = true ∧
      login (T := T) crypto username password now d =
        ({ d with issued := d.issued ++ [⟨account.username, account.role, now + expireSeconds⟩] },
          .done (.loggedIn ⟨account.username, account.role⟩
            (crypto.encode ⟨account.username, account.role, now + expireSeconds⟩)))) ∨
      login (T := T) crypto username password now d = (d, .done .unauthorized) := by
  rw [login]
  cases hfind : d.accounts.find? fun account => account.username = username with
  | none => exact .inr rfl
  | some account =>
    dsimp only [Option.map_some, Option.getD_some]
    split_ifs with hpassword
    · have hname := List.find?_some hfind
      rw [decide_eq_true_eq] at hname
      exact .inl ⟨account, List.mem_of_find?_eq_some hfind, hname, hpassword, rfl⟩
    · exact .inr rfl

theorem written_statement {d : Database W R} {p : Progress T W R} {now : ℕ}
    (hreply : reply.time? = some now) :
    Written crypto request reply d p (statement lower request d now p).1 := by
  unfold statement
  split
  · rename_i user token requestId fingerprint response queryFailure
    rw [Database.saveConversation]
    split_ifs with haccount
    · dsimp only
      split <;> exact .saved hreply rfl
    · exact .skipped
  · exact .recorded
  · exact .same
  · exact .deleted hreply rfl
  · exact .same
  · exact .same
  · exact .same
  · rename_i token reviewId call
    cases hupdate : d.updateFailureReview reviewId call now with
    | none => exact .same
    | some written => exact .updated hupdate
  · exact .same
  · exact .same

theorem recordOf_requestId {requestId fingerprint : String} {queryFailure : Option QueryFailure}
    {response : ChatResponse W R} {record : FailureRecord}
    (h : recordOf lower requestId fingerprint queryFailure response = some record) :
    record.requestId = requestId := by
  cases queryFailure with
  | none => cases h
  | some failure =>
    rw [recordOf] at h
    split_ifs at h
    cases h
    rfl

theorem passes_found {d : Database W R} {p : Progress T W R} (hp : p = .detail ∨ p = .readBack)
    (found : Option (ReviewRow × Row W R)) {missing : Response T W R} (hmissing : ¬ missing.Tells) :
    Passes crypto request reply d p
      (.done ((found.map fun found => .review found.1 found.2).getD missing)) := by
  cases found with
  | none => exact .ended hmissing
  | some found => exact .review hp

theorem passes_statement {d : Database W R} {p : Progress T W R} {now : ℕ}
    (hreply : reply = .ok now) :
    Passes crypto request reply d p (statement lower request d now p).2 := by
  unfold statement
  split
  · rename_i user token requestId fingerprint response queryFailure
    rw [Database.saveConversation]
    split_ifs with haccount
    · dsimp only
      split
      · exact .ended nofun
      · rename_i record hrecord
        exact .record rfl (recordOf_requestId hrecord)
    · exact .ended nofun
  · exact passes_onException d _
  · exact .history hreply
  · rename_i user token historyId
    dsimp only
    split_ifs with hdeleted
    · exact .deleted hreply rfl hdeleted
    · exact .ended nofun
  · exact .counted
  · exact .reviews
  · exact passes_found (.inl rfl) _ nofun
  · rename_i token reviewId call
    cases hupdate : d.updateFailureReview reviewId call now with
    | none => exact .ended nofun
    | some written =>
      obtain ⟨d', updated⟩ := written
      cases updated with
      | false => exact .ended nofun
      | true => exact .readBack
  · exact passes_found (.inr rfl) _ nofun
  · exact .ended nofun

theorem passes_authenticate {d : Database W R} {now : ℕ} (hreply : reply = .ok now) :
    Passes crypto request reply d .start (authenticate crypto request now) := by
  rw [authenticate]
  cases huser : currentUser crypto now request.token with
  | none => exact .ended nofun
  | some user =>
    dsimp only
    split_ifs with hforbidden
    · exact .ended nofun
    · exact .entered hreply huser fun hadmin => by simpa [hadmin] using hforbidden

theorem begin_of_not_login {d : Database W R} {now : ℕ}
    (h : ∀ username password, request ≠ .login username password) :
    begin crypto request now d = (d, authenticate crypto request now) := by
  unfold begin
  split
  · exact absurd rfl (h _ _)
  · rfl

/-- What a request that has come writes, and what comes next. -/
theorem effect_begin {d : Database W R} {now : ℕ} (hreply : reply = .ok now) :
    Written crypto request reply d .start (begin crypto request now d).1 ∧
      Passes crypto request reply d .start (begin crypto request now d).2 := by
  by_cases hlogin : ∃ username password, request = .login username password
  · obtain ⟨username, password, hrequest⟩ := hlogin
    have hbegin : begin crypto request now d = login crypto username password now d := by
      rw [hrequest, begin]
    rw [hbegin]
    obtain ⟨account, hmem, hname, hpassword, heq⟩ | heq := @login_eq T W R crypto username password
      now d
    · rw [heq]
      subst hname
      exact ⟨.issued hreply hrequest hmem hpassword, .loggedIn hreply hrequest hmem hpassword⟩
    · rw [heq]
      exact ⟨.same, .ended nofun⟩
  · push Not at hlogin
    rw [begin_of_not_login hlogin]
    exact ⟨.same, passes_authenticate hreply⟩

/-- **What a step writes, and what comes next.** -/
theorem effect_advance {d : Database W R} {p : Progress T W R}
    (hp : ∀ response, p ≠ .done response) :
    Written crypto request reply d p (advance crypto lower request reply (d, p)).1 ∧
      Passes crypto request reply d p (advance crypto lower request reply (d, p)).2 := by
  unfold advance
  split
  · rename_i heq
    exact absurd (congrArg Prod.snd heq) (hp _)
  · rename_i heq
    cases heq
    cases reply with
    | ok now => exact effect_begin rfl
    | lost now => exact ⟨.same, .ended nofun⟩
    | error => exact ⟨.same, .ended nofun⟩
  · rename_i heq
    cases heq
    cases reply with
    | ok now => exact ⟨written_statement rfl, passes_statement rfl⟩
    | lost now => exact ⟨written_statement rfl, passes_onException d p⟩
    | error => exact ⟨.same, passes_onException d p⟩

end Access
