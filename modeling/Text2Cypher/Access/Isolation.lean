import Text2Cypher.Access.Requests

/-!
# Who sees and deletes conversations

Any number of requests at the same time, of users who can present only tokens that they have been
given.  What a request hears of a conversation, and what it deletes, goes back to a login with a
password: of the owner, or of an administrator, and within the lifetime of the token.

* `Authenticated`: a request whose user has logged in before;
* `Invariant`: what is known of every request at its statement;
* `isolated`: the guarantees.
-/

namespace Access

open Chat Interleaving

variable {T W R ι : Type}

/-! ### Guarantees -/

section

variable (crypto : Crypto T) (request : ι → Request T W R)

/-- The move in which a user logs in and is given a token. -/
def LogsIn (move : Move ι Reply (Database W R) (Progress T W R)) (claims : Claims) : Prop :=
  ∃ i now account password, move.actor = some (i, .ok now) ∧
    request i = .login account.username password ∧ account ∈ move.before.shared.accounts ∧
    crypto.checkpw password account.passwordHash = true ∧
    claims = ⟨account.username, account.role, now + expireSeconds⟩

/-- The request has been authenticated: before that its user has logged in, and the token had not
expired. -/
def Authenticated (moves : List (Move ι Reply (Database W R) (Progress T W R))) (i : ι)
    (user : CurrentUser) : Prop :=
  ∃ earlier move later now claims, moves = earlier ++ move :: later ∧
    move.actor = some (i, .ok now) ∧ (∃ login ∈ earlier, LogsIn crypto request login claims) ∧
    now < claims.exp ∧ user = ⟨claims.sub, claims.role⟩

/-- The conversation is the response to a question of its user. -/
def Asked (moves : List (Move ι Reply (Database W R) (Progress T W R))) (row : Row W R) : Prop :=
  ∃ i user token requestId fingerprint response queryFailure,
    request i = .chat token requestId fingerprint (some (response, queryFailure)) ∧
      Authenticated crypto request moves i user ∧
      row.conversation = toConversation user.username response

/-- Whoever sees or deletes a conversation is its user, or an administrator. -/
structure Isolated (moves : List (Move ι Reply (Database W R) (Progress T W R)))
    (s : System ι (Database W R) (Progress T W R)) : Prop where
  history : ∀ i rows, s.party i = .done (.history rows) →
    ∃ user, Authenticated crypto request moves i user ∧ ∀ row ∈ rows,
      (user.role = "admin" ∨ row.conversation.username = user.username) ∧
        Asked crypto request moves row
  reviews : ∀ i items total, s.party i = .done (.reviews items total) →
    ∃ user, Authenticated crypto request moves i user ∧ user.role = "admin"
  review : ∀ i review row, s.party i = .done (.review review row) →
    ∃ user, Authenticated crypto request moves i user ∧ user.role = "admin"
  deleted : ∀ move ∈ moves, ∀ row ∈ move.before.shared.conversations,
    row ∉ move.after.shared.conversations → ∃ i reply user token,
      move.actor = some (i, reply) ∧ request i = .deleteHistory token row.id ∧
        Authenticated crypto request moves i user ∧
        (user.role = "admin" ∨ row.conversation.username = user.username)

end

/-- The service with empty tables. -/
def started (accounts : List Account) : System ι (Database W R) (Progress T W R) :=
  ⟨⟨accounts, [], 0, [], 0, []⟩, fun _ => .start⟩

/-! ### What one step can do -/

variable {crypto : Crypto T} {lower : String → String}

theorem visible_iff {user : CurrentUser} {row : Row W R} :
    visible user row = true ↔
      user.role = "admin" ∨ row.conversation.username = user.username := by
  simp [visible]

theorem mem_listHistory {d : Database W R} {user : CurrentUser} {row : Row W R} :
    row ∈ d.listHistory user ↔ row ∈ d.conversations ∧ visible user row = true := by
  rw [Database.listHistory, List.mem_insertionSort, List.mem_filter]

@[simp] theorem conversations_createFailureReview (d : Database W R) (conversationId : ℕ)
    (record : FailureRecord) (now : ℕ) :
    (d.createFailureReview conversationId record now).conversations = d.conversations := by
  unfold Database.createFailureReview
  split_ifs <;> rfl

@[simp] theorem issued_createFailureReview (d : Database W R) (conversationId : ℕ)
    (record : FailureRecord) (now : ℕ) :
    (d.createFailureReview conversationId record now).issued = d.issued := by
  unfold Database.createFailureReview
  split_ifs <;> rfl

theorem updateFailureReview_eq_some {d d' : Database W R} {reviewId : ℤ}
    {call : FailureReviews.Call} {now : ℕ} {updated : Bool}
    (h : d.updateFailureReview reviewId call now = some (d', updated)) :
    d' = { d with
      reviews := d.reviews.map fun row =>
        if names reviewId call row then { row with review := row.review.updated call.clean now }
        else row } := by
  dsimp only [Database.updateFailureReview] at h
  split_ifs at h
  cases h
  rfl

/-- The user of a statement on conversations. -/
def Progress.user? : Progress T W R → Option CurrentUser
  | .save user | .list user | .delete user => some user
  | _ => none

/-- The statements on reviews, and what is heard of them. -/
def Progress.OfAdmin : Progress T W R → Prop
  | .countReviews | .listReviews _ | .detail | .patch | .readBack => True
  | .done (.reviews ..) | .done (.review ..) => True
  | _ => False

section

variable {request : Request T W R} {reply : Reply} {d d' : Database W R} {p p' : Progress T W R}

theorem user?_first {user user' : CurrentUser} (h : (request.first user).user? = some user') :
    user' = user := by
  cases request with
  | login => cases h
  | chat token requestId fingerprint outcome =>
    cases outcome with
    | none => cases h
    | some outcome => exact (Option.some.inj h).symm
  | history => exact (Option.some.inj h).symm
  | deleteHistory => exact (Option.some.inj h).symm
  | reviews => cases h
  | reviewDetail => cases h
  | patchReview token reviewId call =>
    rw [Request.first] at h
    split_ifs at h <;> cases h

theorem requiresAdmin_of_first {user : CurrentUser} (h : (request.first user).OfAdmin) :
    request.requiresAdmin = true := by
  cases request with
  | login => exact h.elim
  | chat token requestId fingerprint outcome => cases outcome <;> exact h.elim
  | history => exact h.elim
  | deleteHistory => exact h.elim
  | reviews => rfl
  | reviewDetail => rfl
  | patchReview => rfl

/-- A request learns its user when it is authenticated. -/
theorem Passes.user? (h : Passes crypto request reply d p p') {user : CurrentUser}
    (huser : p'.user? = some user) : ∃ now, reply = .ok now ∧ p = .start ∧
      currentUser crypto now request.token = some user := by
  cases h with
  | entered hreply hcurrent =>
    rw [user?_first huser]
    exact ⟨_, hreply, rfl, hcurrent⟩
  | _ => cases huser

theorem Passes.ofAdmin (h : Passes crypto request reply d p p') (hadmin : p'.OfAdmin) :
    p.OfAdmin ∨ ∃ now user, reply = .ok now ∧ p = .start ∧
      currentUser crypto now request.token = some user ∧ user.role = "admin" := by
  cases h with
  | entered hreply hcurrent hrole =>
    exact .inr ⟨_, _, hreply, rfl, hcurrent, hrole (requiresAdmin_of_first hadmin)⟩
  | counted | reviews | readBack => exact .inl trivial
  | review hp => rcases hp with rfl | rfl <;> exact .inl trivial
  | @ended _ response hquiet =>
    cases response <;> first | exact hadmin.elim | exact (hquiet trivial).elim
  | _ => exact hadmin.elim

theorem first_ne_history {user : CurrentUser} {rows : List (Row W R)} :
    request.first user ≠ .done (.history rows) := by
  intro h
  cases request with
  | chat token requestId fingerprint outcome => cases outcome <;> cases h
  | patchReview token reviewId call =>
    rw [Request.first] at h
    split_ifs at h
  | _ => cases h

theorem Passes.eq_listHistory {rows : List (Row W R)}
    (h : Passes crypto request reply d p (.done (.history rows))) :
    ∃ user, p = .list user ∧ rows = d.listHistory user := by
  generalize hp' : Progress.done (Response.history rows) = p' at h
  cases h with
  | entered => exact absurd hp'.symm first_ne_history
  | history =>
    cases hp'
    exact ⟨_, rfl, rfl⟩
  | ended hquiet =>
    cases hp'
    exact (hquiet trivial).elim
  | _ => cases hp'

theorem Written.conversations (h : Written crypto request reply d p d') {row : Row W R}
    (hrow : row ∈ d'.conversations) : row ∈ d.conversations ∨
      ∃ user token requestId fingerprint response queryFailure, p = .save user ∧
        request = .chat token requestId fingerprint (some (response, queryFailure)) ∧
        row.conversation = toConversation user.username response := by
  cases h with
  | same | issued | skipped => exact .inl hrow
  | recorded => exact .inl (by rwa [conversations_createFailureReview] at hrow)
  | saved hreply hrequest =>
    rcases List.mem_append.1 hrow with hrow | hrow
    · exact .inl hrow
    · rw [List.mem_singleton.1 hrow]
      exact .inr ⟨_, _, _, _, _, _, rfl, hrequest, rfl⟩
  | deleted => exact .inl (List.mem_of_mem_filter hrow)
  | updated hupdate =>
    rw [updateFailureReview_eq_some hupdate] at hrow
    exact .inl hrow

/-- Only a `DELETE` of somebody who may see the conversation deletes it. -/
theorem Written.deletes (h : Written crypto request reply d p d') {row : Row W R}
    (hrow : row ∈ d.conversations) (hgone : row ∉ d'.conversations) :
    ∃ user token, p = .delete user ∧ request = .deleteHistory token row.id ∧
      visible user row = true := by
  cases h with
  | same | issued | skipped => exact absurd hrow hgone
  | recorded => exact absurd (by rwa [conversations_createFailureReview]) hgone
  | saved => exact absurd (List.mem_append_left _ hrow) hgone
  | @deleted user token historyId now hreply hrequest =>
    have hdeletes : deletes user historyId row = true := by
      by_contra hkept
      exact hgone (List.mem_filter.2 ⟨hrow, by simpa using hkept⟩)
    rw [Access.deletes, Bool.and_eq_true, decide_eq_true_eq] at hdeletes
    obtain ⟨rfl, hvisible⟩ := hdeletes
    exact ⟨user, token, rfl, hrequest, hvisible⟩
  | updated hupdate =>
    rw [updateFailureReview_eq_some hupdate] at hgone
    exact absurd hrow hgone

/-- Tokens are signed for users who have given their password. -/
theorem Written.mem_issued (h : Written crypto request reply d p d') {claims : Claims}
    (hclaims : claims ∈ d'.issued) : claims ∈ d.issued ∨ ∃ now account password,
      reply = .ok now ∧ request = .login account.username password ∧ account ∈ d.accounts ∧
        crypto.checkpw password account.passwordHash = true ∧
        claims = ⟨account.username, account.role, now + expireSeconds⟩ := by
  cases h with
  | same | skipped | saved | deleted => exact .inl hclaims
  | recorded => exact .inl (by rwa [issued_createFailureReview] at hclaims)
  | issued hreply hrequest hmem hpassword =>
    rcases List.mem_append.1 hclaims with hclaims | hclaims
    · exact .inl hclaims
    · exact .inr ⟨_, _, _, hreply, hrequest, hmem, hpassword, List.mem_singleton.1 hclaims⟩
  | updated hupdate =>
    rw [updateFailureReview_eq_some hupdate] at hclaims
    exact .inl hclaims

end

/-! ### The invariant -/

section

variable {request : ι → Request T W R}
  {moves : List (Move ι Reply (Database W R) (Progress T W R))}
  {s : System ι (Database W R) (Progress T W R)}

theorem Authenticated.append {i : ι} {user : CurrentUser}
    (h : Authenticated crypto request moves i user)
    (move : Move ι Reply (Database W R) (Progress T W R)) :
    Authenticated crypto request (moves ++ [move]) i user := by
  obtain ⟨earlier, auth, later, now, claims, rfl, hactor, hlogin, hexp, huser⟩ := h
  exact ⟨earlier, auth, later ++ [move], now, claims, by simp, hactor, hlogin, hexp, huser⟩

theorem Asked.append {row : Row W R} (h : Asked crypto request moves row)
    (move : Move ι Reply (Database W R) (Progress T W R)) :
    Asked crypto request (moves ++ [move]) row := by
  obtain ⟨i, user, token, requestId, fingerprint, response, queryFailure, hrequest, hauth, hrow⟩ := h
  exact ⟨i, user, token, requestId, fingerprint, response, queryFailure, hrequest,
    hauth.append move, hrow⟩

theorem admin_append {i : ι}
    (h : ∃ user, Authenticated crypto request moves i user ∧ user.role = "admin")
    (move : Move ι Reply (Database W R) (Progress T W R)) :
    ∃ user, Authenticated crypto request (moves ++ [move]) i user ∧ user.role = "admin" := by
  obtain ⟨user, hauth, hrole⟩ := h
  exact ⟨user, hauth.append move, hrole⟩

/-- What a request has heard of the history stays in order. -/
theorem Isolated.history_append (h : Isolated crypto request moves s) {i : ι}
    {rows : List (Row W R)} (hrows : s.party i = .done (.history rows))
    (move : Move ι Reply (Database W R) (Progress T W R)) :
    ∃ user, Authenticated crypto request (moves ++ [move]) i user ∧ ∀ row ∈ rows,
      (user.role = "admin" ∨ row.conversation.username = user.username) ∧
        Asked crypto request (moves ++ [move]) row := by
  obtain ⟨user, hauth, hseen⟩ := h.history i rows hrows
  exact ⟨user, hauth.append move, fun row hrow =>
    (hseen row hrow).imp_right fun hasked => hasked.append move⟩

theorem Isolated.deleted_append (h : Isolated crypto request moves s)
    (move : Move ι Reply (Database W R) (Progress T W R)) :
    ∀ earlier ∈ moves, ∀ row ∈ earlier.before.shared.conversations,
      row ∉ earlier.after.shared.conversations → ∃ i reply user token,
        earlier.actor = some (i, reply) ∧ request i = .deleteHistory token row.id ∧
          Authenticated crypto request (moves ++ [move]) i user ∧
          (user.role = "admin" ∨ row.conversation.username = user.username) := by
  intro earlier hearlier row hrow hgone
  obtain ⟨i, reply, user, token, hactor, hrequest, hauth, hvisible⟩ :=
    h.deleted earlier hearlier row hrow hgone
  exact ⟨i, reply, user, token, hactor, hrequest, hauth.append move, hvisible⟩

/-- What is known of the tables, and of every request at its statement. -/
structure Invariant (crypto : Crypto T) (request : ι → Request T W R)
    (moves : List (Move ι Reply (Database W R) (Progress T W R)))
    (s : System ι (Database W R) (Progress T W R)) : Prop
    extends Isolated crypto request moves s where
  issued : ∀ claims ∈ s.shared.issued, ∃ move ∈ moves, LogsIn crypto request move claims
  asked : ∀ row ∈ s.shared.conversations, Asked crypto request moves row
  known : ∀ i user, (s.party i).user? = some user → Authenticated crypto request moves i user
  admin : ∀ i, (s.party i).OfAdmin →
    ∃ user, Authenticated crypto request moves i user ∧ user.role = "admin"

theorem invariant_started (accounts : List Account) :
    Invariant crypto request [] (started accounts) where
  history := by
    rintro _ _ ⟨⟩
  reviews := by
    rintro _ _ _ ⟨⟩
  review := by
    rintro _ _ _ ⟨⟩
  deleted := List.forall_mem_nil _
  issued := List.forall_mem_nil _
  asked := List.forall_mem_nil _
  known := by
    rintro _ _ ⟨⟩
  admin := fun _ => False.elim

/-- The environment keeps the invariant: it adds and deletes no conversation, and signs no token. -/
theorem Invariant.others (h : Invariant crypto request moves s) {d : Database W R}
    (hstep : OthersStep s.shared d) :
    Invariant crypto request (moves ++ [⟨none, s, ⟨d, s.party⟩⟩]) ⟨d, s.party⟩ := by
  obtain ⟨hconversations, -, -, -, hissued⟩ := hstep
  constructor
  case toIsolated =>
    constructor
    case history => exact fun j rows hrows => h.history_append hrows _
    case reviews =>
      exact fun j items total hitems => admin_append (h.reviews j items total hitems) _
    case review => exact fun j review row hreview => admin_append (h.review j review row hreview) _
    case deleted =>
      rw [List.forall_mem_append, List.forall_mem_singleton]
      refine ⟨h.deleted_append _, fun row hrow hgone => ?_⟩
      exact absurd (hconversations.mem_iff.2 hrow) hgone
  case issued =>
    intro claims hclaims
    obtain ⟨login, hlogin, hlogs⟩ := h.issued claims (hissued ▸ hclaims)
    exact ⟨login, List.mem_append_left _ hlogin, hlogs⟩
  case asked =>
    exact fun row hrow => (h.asked row (hconversations.mem_iff.1 hrow)).append _
  case known => exact fun j user huser => (h.known j user huser).append _
  case admin => exact fun j hof => admin_append (h.admin j hof) _

variable [DecidableEq ι]

/-- A request whose token is accepted has been authenticated. -/
theorem Invariant.authenticated (hcrypto : crypto.Sound) (h : Invariant crypto request moves s)
    {i : ι} {now : ℕ} {user : CurrentUser} {next : Database W R × Progress T W R}
    (hpresentable : Presentable crypto (request i) s.shared)
    (huser : currentUser crypto now (request i).token = some user) :
    Authenticated crypto request (moves ++ [⟨some (i, .ok now), s, s.moved i next⟩]) i user := by
  obtain ⟨claims, hclaims, rfl⟩ := Option.map_eq_some_iff.1 huser
  obtain ⟨token, htoken, hdecode⟩ := Option.bind_eq_some_iff.1 hclaims
  have hissued : claims ∈ s.shared.issued :=
    hpresentable claims (by rw [htoken, hcrypto.signed hdecode])
  obtain ⟨login, hmem, hlogin⟩ := h.issued claims hissued
  exact ⟨moves, _, [], now, claims, rfl, rfl, ⟨login, hmem, hlogin⟩, hcrypto.expires hdecode, rfl⟩

/-- A request keeps the invariant. -/
theorem Invariant.act (hcrypto : crypto.Sound) (h : Invariant crypto request moves s) {i : ι}
    {reply : Reply} {next : Database W R × Progress T W R}
    (hstep : RequestStep crypto lower request i reply (s.shared, s.party i) next) :
    Invariant crypto request (moves ++ [⟨some (i, reply), s, s.moved i next⟩]) (s.moved i next) := by
  obtain ⟨hrunning, hpresentable, hnext⟩ := hstep
  obtain ⟨hwritten, hpasses⟩ := @effect_advance T W R crypto lower (request i) reply s.shared
    (s.party i) hrunning
  rw [← hnext] at hwritten hpasses
  -- a user is known from the move in which the request was authenticated
  have hentered : ∀ {now user}, reply = .ok now → s.party i = .start →
      currentUser crypto now (request i).token = some user →
        Authenticated crypto request (moves ++ [⟨some (i, reply), s, s.moved i next⟩]) i user := by
    rintro now user rfl hstart huser
    exact h.authenticated hcrypto (hpresentable hstart) huser
  have hadmin : next.2.OfAdmin → ∃ user,
      Authenticated crypto request (moves ++ [⟨some (i, reply), s, s.moved i next⟩]) i user ∧
        user.role = "admin" := by
    intro hof
    rcases hpasses.ofAdmin hof with hof | ⟨now, user, hreply, hstart, huser, hrole⟩
    · exact admin_append (h.admin i hof) _
    · exact ⟨user, hentered hreply hstart huser, hrole⟩
  constructor
  case toIsolated =>
    constructor
    case history =>
      intro j
      by_cases hj : j = i
      · rw [hj, System.moved_party_self]
        intro rows hrows
        rw [hrows] at hpasses
        -- the rows are those that the user may see at this moment
        obtain ⟨user, hlist, rfl⟩ := hpasses.eq_listHistory
        have hauth := h.known i user (by rw [hlist]; rfl)
        refine ⟨user, hauth.append _, fun row hrow => ?_⟩
        obtain ⟨hmem, hvisible⟩ := mem_listHistory.1 hrow
        exact ⟨visible_iff.1 hvisible, (h.asked row hmem).append _⟩
      · rw [System.moved_party_of_ne s hj]
        exact fun rows hrows => h.history_append hrows _
    case reviews =>
      intro j
      by_cases hj : j = i
      · rw [hj, System.moved_party_self]
        exact fun items total hitems => hadmin (by rw [hitems]; trivial)
      · rw [System.moved_party_of_ne s hj]
        exact fun items total hitems => admin_append (h.reviews j items total hitems) _
    case review =>
      intro j
      by_cases hj : j = i
      · rw [hj, System.moved_party_self]
        exact fun review row hreview => hadmin (by rw [hreview]; trivial)
      · rw [System.moved_party_of_ne s hj]
        exact fun review row hreview => admin_append (h.review j review row hreview) _
    case deleted =>
      rw [List.forall_mem_append, List.forall_mem_singleton]
      refine ⟨h.deleted_append _, fun row hrow hgone => ?_⟩
      obtain ⟨user, token, hdelete, hrequest, hvisible⟩ := hwritten.deletes hrow hgone
      have hauth := h.known i user (by rw [hdelete]; rfl)
      exact ⟨i, reply, user, token, rfl, hrequest, hauth.append _, visible_iff.1 hvisible⟩
  case issued =>
    intro claims hclaims
    rcases hwritten.mem_issued hclaims with
      hold | ⟨now, account, password, rfl, hrequest, hmem, hpassword, rfl⟩
    · obtain ⟨login, hlogin, hclaims⟩ := h.issued claims hold
      exact ⟨login, List.mem_append_left _ hlogin, hclaims⟩
    · exact ⟨_, List.mem_append_right _ (List.mem_singleton_self _), i, now, account, password,
        rfl, hrequest, hmem, hpassword, rfl⟩
  case asked =>
    intro row hrow
    rcases hwritten.conversations hrow with hold | ⟨user, token, requestId, fingerprint, response,
      queryFailure, hsave, hrequest, hconversation⟩
    · exact (h.asked row hold).append _
    · have hauth := h.known i user (by rw [hsave]; rfl)
      exact ⟨i, user, token, requestId, fingerprint, response, queryFailure, hrequest,
        hauth.append _, hconversation⟩
  case known =>
    intro j
    by_cases hj : j = i
    · rw [hj, System.moved_party_self]
      intro user huser
      obtain ⟨now, hreply, hstart, hcurrent⟩ := hpasses.user? huser
      exact hentered hreply hstart hcurrent
    · rw [System.moved_party_of_ne s hj]
      exact fun user huser => (h.known j user huser).append _
  case admin =>
    intro j
    by_cases hj : j = i
    · rw [hj, System.moved_party_self]
      exact hadmin
    · rw [System.moved_party_of_ne s hj]
      exact fun hof => admin_append (h.admin j hof) _

/-- **Conversations are seen and deleted by their users and by administrators only.** -/
theorem isolated (hcrypto : crypto.Sound) {accounts : List Account}
    (h : History (RequestStep crypto lower request) OthersStep (started accounts) moves s) :
    Isolated crypto request moves s := by
  have hinvariant : Invariant crypto request moves s :=
    History.rule (invariant_started accounts)
      (fun _ _ _ _ _ hholds hstep _ => hholds.act hcrypto hstep)
      (fun _ _ _ hholds hstep => hholds.others hstep) h fun _ _ => trivial
  exact hinvariant.toIsolated

end

/-! ### A run -/

/-- Tokens that are their own payload, and passwords that are their own hash. -/
def plainCrypto : Crypto Claims where
  checkpw password passwordHash := password = passwordHash
  dummyHash := ""
  encode claims := claims
  decode now claims := if now < claims.exp then some claims else none

/-- The answer to a request. -/
def Progress.response? : Progress T W R → Option (Response T W R)
  | .done response => some response
  | _ => none

theorem plainCrypto_sound : plainCrypto.Sound where
  signed h := Option.some.inj (Option.ite_none_right_eq_some.1 h).2
  expires h := by
    obtain ⟨hexp, hclaims⟩ := Option.ite_none_right_eq_some.1 h
    rw [← Option.some.inj hclaims]
    exact hexp

/-- A schedule in which only requests without an answer take steps, with tokens that they have been
given. -/
theorem history_plain [DecidableEq ι] {request : ι → Request Claims W R}
    {start : System ι (Database W R) (Progress Claims W R)} {schedule : List (ι × Reply)}
    (hready : ∀ move ∈ (replay (fun i reply => advance plainCrypto lower (request i) reply) start
        schedule).1,
      ∀ step ∈ move.actor, (move.before.party step.1).response?.isNone = true ∧
        ∀ claims ∈ (request step.1).token, claims ∈ move.before.shared.issued) :
    History (RequestStep plainCrypto lower request) OthersStep start
      (replay (fun i reply => advance plainCrypto lower (request i) reply) start schedule).1
      (replay (fun i reply => advance plainCrypto lower (request i) reply) start schedule).2 := by
  refine history_replay fun move hmem i reply hactor => ⟨?_, ?_, replay_eq_next hmem hactor⟩
  · intro response hdone
    obtain ⟨hnone, -⟩ := hready move hmem (i, reply) hactor
    rw [show move.before.party i = .done response from hdone] at hnone
    cases hnone
  · exact fun _ => (hready move hmem (i, reply) hactor).2

/-- A user logs in, asks a question, lists the history and deletes the conversation. -/
def userRequests : Fin 4 → Request Claims Unit Unit
  | 0 => .login "lee" "secret"
  | 1 => .chat (some ⟨"lee", "user", expireSeconds⟩) "r" "f"
      (some (⟨"stock?", none, none, none, none, none, none, none, none⟩, none))
  | 2 => .history (some ⟨"lee", "user", expireSeconds⟩)
  | 3 => .deleteHistory (some ⟨"lee", "user", expireSeconds⟩) 0

/-- The answer to the last statement is lost. -/
def userRun : List (Move (Fin 4) Reply (Database Unit Unit) (Progress Claims Unit Unit)) ×
    System (Fin 4) (Database Unit Unit) (Progress Claims Unit Unit) :=
  replay (fun i reply => advance plainCrypto id (userRequests i) reply)
    (started [⟨"lee", "secret", "user"⟩])
    [(0, .ok 0), (1, .ok 1), (1, .ok 2), (2, .ok 3), (2, .ok 4), (3, .ok 5), (3, .lost 6)]

/-- Only one row is seen, and it is deleted. -/
theorem isolated_userRun : Isolated plainCrypto userRequests userRun.1 userRun.2 ∧
    (∃ row, userRun.2.party 2 = .done (.history [row])) ∧ userRun.2.shared.conversations = [] := by
  have hready : ∀ move ∈ userRun.1, ∀ step ∈ move.actor,
      (move.before.party step.1).response?.isNone = true ∧
        ∀ claims ∈ (userRequests step.1).token, claims ∈ move.before.shared.issued := by decide
  exact ⟨isolated plainCrypto_sound (history_plain hready), ⟨_, rfl⟩, rfl⟩

end Access
