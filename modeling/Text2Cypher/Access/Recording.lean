import Text2Cypher.Access.Isolation

/-!
# What becomes of recorded failures

A chat saves its conversation in one transaction and its failure in the next, and other requests may
come in between: the conversation may be deleted, and with a conversation its review goes.  The IDs
of the requests are made by the server and differ (`Identified`).

* `Reports`: a record of the failure of a chat, and the conversation that it belongs to;
* `Reviewing`: what is known between two statements;
* `recorded_once`: no failure is recorded twice or with another conversation, and none gets lost.
-/

namespace Access

open Chat Interleaving

variable {T W R ι : Type}

/-! ### Guarantees -/

section

variable (lower : String → String) (request : ι → Request T W R)

/-- The record of the failure of a chat, and the conversation of that chat. -/
def Reports (request : Request T W R) (record : FailureRecord) (conversation : Conversation W R) :
    Prop :=
  ∃ username token requestId fingerprint response queryFailure,
    request = .chat token requestId fingerprint (some (response, queryFailure)) ∧
      recordOf lower requestId fingerprint queryFailure response = some record ∧
      conversation = toConversation username response

/-- The ID of a chat. -/
def Request.requestId? : Request T W R → Option String
  | .chat _ requestId _ _ => some requestId
  | _ => none

/-- The IDs of the chats differ, and they fit into the table with the rest of the record. -/
structure Identified : Prop where
  distinct : ∀ {i j requestId}, (request i).requestId? = some requestId →
    (request j).requestId? = some requestId → i = j
  short : ∀ {i token requestId fingerprint response queryFailure},
    request i = .chat token requestId fingerprint (some (response, queryFailure)) →
      requestId.length ≤ 64 ∧ fingerprint.length ≤ 64 ∧
        ∀ failure ∈ queryFailure, failure.code.length ≤ 64

/-- A conversation has at most one review, the one of its chat, and it has it once the `INSERT` is
done, whether or not the chat hears of that. -/
structure Recorded (moves : List (Move ι Reply (Database W R) (Progress T W R)))
    (s : System ι (Database W R) (Progress T W R)) : Prop where
  once : (s.shared.reviews.map ReviewRow.conversationId).Nodup
  own : ∀ review ∈ s.shared.reviews, ∃ i, ∃ row ∈ s.shared.conversations,
    row.id = review.conversationId ∧ Reports lower (request i) review.record row.conversation
  kept : ∀ move ∈ moves, ∀ i reply conversationId record, move.actor = some (i, reply) →
    reply ≠ .error → move.before.party i = .record conversationId record →
      conversationId ∈ s.shared.conversations.map Row.id →
        ∃ review ∈ s.shared.reviews,
          review.conversationId = conversationId ∧ review.record = record

end

/-! ### Tables -/

variable {crypto : Crypto T} {lower : String → String}

section

variable {d d' : Database W R} {conversationId now : ℕ} {record : FailureRecord}

@[simp] theorem nextConversation_createFailureReview :
    (d.createFailureReview conversationId record now).nextConversation = d.nextConversation := by
  unfold Database.createFailureReview
  split_ifs <;> rfl

theorem mem_createFailureReview {review : ReviewRow}
    (h : review ∈ (d.createFailureReview conversationId record now).reviews) :
    (∃ old ∈ d.reviews, old.conversationId = review.conversationId ∧ old.record = review.record) ∨
      review.conversationId = conversationId ∧ review.record = record ∧
        conversationId ∈ d.conversations.map Row.id := by
  unfold Database.createFailureReview at h
  split_ifs at h with haccepted hconflict hfree
  · obtain ⟨old, hold, rfl⟩ := List.mem_map.1 h
    refine .inl ⟨old, hold, ?_⟩
    split_ifs <;> exact ⟨rfl, rfl⟩
  · rcases List.mem_append.1 h with h | h
    · exact .inl ⟨review, h, rfl, rfl⟩
    · rw [List.mem_singleton.1 h]
      exact .inr ⟨rfl, rfl, hfree.1⟩
  · exact .inl ⟨review, h, rfl, rfl⟩
  · exact .inl ⟨review, h, rfl, rfl⟩

theorem conversationId_setUpdatedAt :
    (d.reviews.map fun row =>
      if row.conversationId = conversationId then
        { row with review := { row.review with updatedAt := now } }
      else row).map ReviewRow.conversationId = d.reviews.map ReviewRow.conversationId := by
  rw [List.map_map]
  refine List.map_congr_left fun row _ => ?_
  dsimp only [Function.comp_apply]
  split_ifs <;> rfl

theorem once_createFailureReview (h : (d.reviews.map ReviewRow.conversationId).Nodup) :
    ((d.createFailureReview conversationId record now).reviews.map
      ReviewRow.conversationId).Nodup := by
  unfold Database.createFailureReview
  split_ifs with haccepted hconflict
  · rwa [conversationId_setUpdatedAt]
  · rw [List.map_append]
    exact List.nodup_append.2 ⟨h, List.nodup_singleton _, by
      rintro a ha b hb rfl
      have hid : a = conversationId := List.mem_singleton.1 hb
      exact hconflict (hid ▸ ha)⟩
  · exact h
  · exact h

theorem exists_createFailureReview {review : ReviewRow} (h : review ∈ d.reviews) :
    ∃ kept ∈ (d.createFailureReview conversationId record now).reviews,
      kept.conversationId = review.conversationId ∧ kept.record = review.record := by
  unfold Database.createFailureReview
  split_ifs
  · refine ⟨_, List.mem_map_of_mem h, ?_⟩
    split_ifs <;> exact ⟨rfl, rfl⟩
  · exact ⟨review, List.mem_append_left _ h, rfl, rfl⟩
  · exact ⟨review, h, rfl, rfl⟩
  · exact ⟨review, h, rfl, rfl⟩

/-- The `INSERT` of a record that the table accepts. -/
theorem createFailureReview_inserts (haccepted : record.Accepted)
    (hnew : conversationId ∉ d.reviews.map ReviewRow.conversationId)
    (hconversation : conversationId ∈ d.conversations.map Row.id)
    (hrequest : record.requestId ∉ d.reviews.map (·.record.requestId)) :
    ∃ review ∈ (d.createFailureReview conversationId record now).reviews,
      review.conversationId = conversationId ∧ review.record = record := by
  rw [Database.createFailureReview, if_neg (not_not_intro haccepted), if_neg hnew,
    if_pos ⟨hconversation, hrequest⟩]
  exact ⟨_, List.mem_append_right _ (List.mem_singleton_self _), rfl, rfl⟩

end

/-! ### What one step does to conversations and reviews -/

section

variable {request : Request T W R} {reply : Reply} {d d' : Database W R} {p p' : Progress T W R}

theorem Written.nextConversation_le (h : Written crypto request reply d p d') :
    d.nextConversation ≤ d'.nextConversation := by
  cases h with
  | same | issued | deleted => exact le_rfl
  | saved | skipped => exact Nat.le_succ _
  | recorded => rw [nextConversation_createFailureReview]
  | updated hupdate => rw [updateFailureReview_eq_some hupdate]

/-- A row that was not there before has the next ID. -/
theorem Written.row_cases (h : Written crypto request reply d p d') {row : Row W R}
    (hrow : row ∈ d'.conversations) :
    row ∈ d.conversations ∨ row.id = d.nextConversation ∧
      d.nextConversation < d'.nextConversation := by
  cases h with
  | same | issued | skipped => exact .inl hrow
  | recorded => exact .inl (by rwa [conversations_createFailureReview] at hrow)
  | saved =>
    rcases List.mem_append.1 hrow with hrow | hrow
    · exact .inl hrow
    · rw [List.mem_singleton.1 hrow]
      exact .inr ⟨rfl, Nat.lt_succ_self _⟩
  | deleted => exact .inl (List.mem_of_mem_filter hrow)
  | updated hupdate =>
    rw [updateFailureReview_eq_some hupdate] at hrow
    exact .inl hrow

theorem Written.ids (h : Written crypto request reply d p d')
    (hids : (d.conversations.map Row.id).Nodup)
    (hfresh : ∀ row ∈ d.conversations, row.id < d.nextConversation) :
    (d'.conversations.map Row.id).Nodup := by
  cases h with
  | same | issued | skipped => exact hids
  | recorded => rwa [conversations_createFailureReview]
  | saved =>
    rw [List.map_append]
    refine List.nodup_append.2 ⟨hids, List.nodup_singleton _, ?_⟩
    rintro a ha b hb rfl
    obtain ⟨row, hrow, rfl⟩ := List.mem_map.1 ha
    exact absurd (List.mem_singleton.1 hb) (hfresh row hrow).ne
  | deleted => exact hids.sublist (List.filter_sublist.map _)
  | updated hupdate =>
    rw [updateFailureReview_eq_some hupdate]
    exact hids

theorem Written.once (h : Written crypto request reply d p d')
    (honce : (d.reviews.map ReviewRow.conversationId).Nodup) :
    (d'.reviews.map ReviewRow.conversationId).Nodup := by
  cases h with
  | same | issued | saved | skipped => exact honce
  | recorded => exact once_createFailureReview honce
  | deleted => exact honce.sublist (List.filter_sublist.map _)
  | updated hupdate =>
    rw [updateFailureReview_eq_some hupdate, List.map_map]
    convert honce using 1
    refine List.map_congr_left fun row _ => ?_
    dsimp only [Function.comp_apply]
    split_ifs <;> rfl

theorem Written.review_cases (h : Written crypto request reply d p d') {review : ReviewRow}
    (hreview : review ∈ d'.reviews) :
    (∃ old ∈ d.reviews, old.conversationId = review.conversationId ∧ old.record = review.record) ∨
      p = .record review.conversationId review.record ∧
        review.conversationId ∈ d.conversations.map Row.id := by
  cases h with
  | same | issued | saved | skipped => exact .inl ⟨review, hreview, rfl, rfl⟩
  | recorded =>
    rcases mem_createFailureReview hreview with hold | ⟨rfl, rfl, hconversation⟩
    · exact .inl hold
    · exact .inr ⟨rfl, hconversation⟩
  | deleted => exact .inl ⟨review, List.mem_of_mem_filter hreview, rfl, rfl⟩
  | updated hupdate =>
    rw [updateFailureReview_eq_some hupdate] at hreview
    obtain ⟨old, hold, rfl⟩ := List.mem_map.1 hreview
    refine .inl ⟨old, hold, ?_⟩
    split_ifs <;> exact ⟨rfl, rfl⟩

/-- The conversation of a review stays as long as the review. -/
theorem Written.row_kept (h : Written crypto request reply d p d') {review : ReviewRow}
    (hreview : review ∈ d'.reviews) {row : Row W R} (hrow : row ∈ d.conversations)
    (hid : row.id = review.conversationId) : row ∈ d'.conversations := by
  cases h with
  | same | issued | skipped => exact hrow
  | recorded => rwa [conversations_createFailureReview]
  | saved => exact List.mem_append_left _ hrow
  | @deleted user token historyId =>
    -- a review that stays is about none of the deleted rows
    obtain ⟨-, hkept⟩ := List.mem_filter.1 hreview
    refine List.mem_filter.2 ⟨hrow, ?_⟩
    rw [Bool.not_eq_true']
    by_contra hdeletes
    rw [Bool.not_eq_false] at hdeletes
    exact (of_decide_eq_true hkept) (hid ▸ List.mem_map_of_mem (List.mem_filter.2 ⟨hrow, hdeletes⟩))
  | updated hupdate => rwa [updateFailureReview_eq_some hupdate]

/-- A review stays as long as its conversation. -/
theorem Written.review_kept (h : Written crypto request reply d p d')
    (hids : (d.conversations.map Row.id).Nodup) {review : ReviewRow} (hreview : review ∈ d.reviews)
    (hrow : review.conversationId ∈ d'.conversations.map Row.id) :
    ∃ kept ∈ d'.reviews, kept.conversationId = review.conversationId ∧
      kept.record = review.record := by
  cases h with
  | same | issued | saved | skipped => exact ⟨review, hreview, rfl, rfl⟩
  | recorded => exact exists_createFailureReview hreview
  | @deleted user token historyId =>
    refine ⟨review, List.mem_filter.2 ⟨hreview, decide_eq_true fun hdeleted => ?_⟩, rfl, rfl⟩
    obtain ⟨kept, hkept, hkeptId⟩ := List.mem_map.1 hrow
    obtain ⟨gone, hgone, hgoneId⟩ := List.mem_map.1 hdeleted
    obtain ⟨hmem, hstays⟩ := List.mem_filter.1 hkept
    obtain ⟨hmem', hdeletes⟩ := List.mem_filter.1 hgone
    -- no two rows share an ID, so a row that stays is not the one that is deleted
    have heq : kept = gone :=
      List.inj_on_of_nodup_map hids hmem hmem' (hkeptId.trans hgoneId.symm)
    rw [heq, hdeletes] at hstays
    cases hstays
  | updated hupdate =>
    rw [updateFailureReview_eq_some hupdate]
    refine ⟨_, List.mem_map_of_mem hreview, ?_⟩
    split_ifs <;> exact ⟨rfl, rfl⟩

theorem first_ne_record {user : CurrentUser} {conversationId : ℕ} {record : FailureRecord} :
    request.first user ≠ .record conversationId record := by
  intro h
  cases request with
  | chat token requestId fingerprint outcome => cases outcome <;> cases h
  | patchReview token reviewId call =>
    rw [Request.first] at h
    split_ifs at h
  | _ => cases h

theorem snd_advance_record {conversationId : ℕ} {record : FailureRecord} :
    ∃ response, (advance crypto lower request reply (d, .record conversationId record)).2 =
      .done response := by
  have hdone : ∃ response, onException request (.record conversationId record) =
      (.done response : Progress T W R) := by
    dsimp only [onException]
    split <;> exact ⟨_, rfl⟩
  cases reply <;> exact hdone

theorem fst_advance_record {conversationId : ℕ} {record : FailureRecord} (hreply : reply ≠ .error) :
    ∃ now, (advance crypto lower request reply (d, .record conversationId record)).1 =
      d.createFailureReview conversationId record now := by
  cases reply with
  | ok now => exact ⟨now, rfl⟩
  | lost now => exact ⟨now, rfl⟩
  | error => exact absurd rfl hreply

/-- The statement before a record saves the conversation of the chat. -/
theorem saved_of_record (hp : ∀ response, p ≠ .done response) {conversationId : ℕ}
    {record : FailureRecord}
    (h : (advance crypto lower request reply (d, p)).2 = .record conversationId record) :
    conversationId = d.nextConversation ∧ ∃ now conversation,
      Reports lower request record conversation ∧
        (advance crypto lower request reply (d, p)).1 = { d with
          conversations := d.conversations ++ [⟨conversationId, conversation, now⟩]
          nextConversation := conversationId + 1 } := by
  obtain ⟨-, hpasses⟩ := @effect_advance T W R crypto lower request reply d p hp
  generalize hp' : (advance crypto lower request reply (d, p)).2 = p' at hpasses
  rw [hp'] at h
  cases hpasses with
  | entered => exact absurd h first_ne_record
  | @record user token requestId fingerprint response queryFailure record' hrequest =>
    subst hrequest
    cases reply with
    | ok now =>
      simp only [advance, statement, Database.saveConversation] at hp' ⊢
      split_ifs at hp' ⊢ with haccount
      dsimp only at hp' ⊢
      cases hrecord : recordOf lower requestId fingerprint queryFailure response with
      | none =>
        rw [hrecord] at hp'
        cases hp'
      | some found =>
        rw [hrecord] at hp'
        cases hp'
        cases h
        exact ⟨rfl, now, _, ⟨user.username, _, _, _, _, _, rfl, hrecord, rfl⟩, rfl⟩
    | lost now => cases hp'
    | error => cases hp'
  | ended =>
    cases h
  | _ => cases h

end

/-! ### The invariant -/

section

variable {request : ι → Request T W R}
  {moves : List (Move ι Reply (Database W R) (Progress T W R))}
  {s : System ι (Database W R) (Progress T W R)}

/-- A chat that is about to record its failure. -/
structure Pending (lower : String → String) (request : Request T W R) (d : Database W R)
    (conversationId : ℕ) (record : FailureRecord) : Prop where
  saved : conversationId < d.nextConversation
  free : conversationId ∉ d.reviews.map ReviewRow.conversationId
  own : ∀ row ∈ d.conversations, row.id = conversationId →
    Reports lower request record row.conversation

/-- What is known between two statements. -/
structure Reviewing (lower : String → String) (request : ι → Request T W R)
    (moves : List (Move ι Reply (Database W R) (Progress T W R)))
    (s : System ι (Database W R) (Progress T W R)) : Prop extends Recorded lower request moves s where
  ids : (s.shared.conversations.map Row.id).Nodup
  fresh : ∀ row ∈ s.shared.conversations, row.id < s.shared.nextConversation
  past : ∀ move ∈ moves, ∀ i conversationId record,
    move.before.party i = .record conversationId record →
      conversationId < s.shared.nextConversation
  ended : ∀ review ∈ s.shared.reviews, ∀ i,
    (request i).requestId? = some review.record.requestId → ∃ response, s.party i = .done response
  pending : ∀ i conversationId record, s.party i = .record conversationId record →
    Pending lower (request i) s.shared conversationId record
  apart : ∀ i j conversationId record record', s.party i = .record conversationId record →
    s.party j = .record conversationId record' → i = j

theorem reviewing_started (accounts : List Account) :
    Reviewing lower request [] (started accounts) where
  once := List.nodup_nil
  own := List.forall_mem_nil _
  kept := List.forall_mem_nil _
  ids := List.nodup_nil
  fresh := List.forall_mem_nil _
  past := List.forall_mem_nil _
  ended := List.forall_mem_nil _
  pending := by
    rintro _ _ _ ⟨⟩
  apart := by
    rintro _ _ _ _ _ ⟨⟩

/-- The environment keeps the invariant. -/
theorem Reviewing.others (h : Reviewing lower request moves s) {d : Database W R}
    (hstep : OthersStep s.shared d) :
    Reviewing lower request (moves ++ [⟨none, s, ⟨d, s.party⟩⟩]) ⟨d, s.party⟩ := by
  obtain ⟨hconversations, hreviews, hnext, -, -⟩ := hstep
  have hids := hconversations.map Row.id
  have hreviewed := hreviews.map ReviewRow.conversationId
  constructor
  case toRecorded =>
    constructor
    case once => exact hreviewed.nodup_iff.2 h.once
    case own =>
      intro review hreview
      obtain ⟨i, row, hrow, hown⟩ := h.own review (hreviews.mem_iff.1 hreview)
      exact ⟨i, row, hconversations.mem_iff.2 hrow, hown⟩
    case kept =>
      rw [List.forall_mem_append, List.forall_mem_singleton]
      refine ⟨fun move hmove i reply conversationId record hactor hreply hrecord hrow => ?_, ?_⟩
      · obtain ⟨review, hreview, hkept⟩ := h.kept move hmove i reply conversationId record hactor
          hreply hrecord (hids.mem_iff.1 hrow)
        exact ⟨review, hreviews.mem_iff.2 hreview, hkept⟩
      · rintro i reply conversationId record ⟨⟩
  case ids => exact hids.nodup_iff.2 h.ids
  case fresh =>
    exact fun row hrow => (h.fresh row (hconversations.mem_iff.1 hrow)).trans_le hnext
  case past =>
    rw [List.forall_mem_append, List.forall_mem_singleton]
    exact ⟨fun move hmove i conversationId record hrecord =>
      (h.past move hmove i conversationId record hrecord).trans_le hnext,
      fun i conversationId record hrecord =>
        (h.pending i conversationId record hrecord).saved.trans_le hnext⟩
  case ended => exact fun review hreview => h.ended review (hreviews.mem_iff.1 hreview)
  case pending =>
    intro i conversationId record hrecord
    obtain ⟨hsaved, hfree, hown⟩ := h.pending i conversationId record hrecord
    exact ⟨hsaved.trans_le hnext, fun hmem => hfree (hreviewed.mem_iff.1 hmem),
      fun row hrow => hown row (hconversations.mem_iff.1 hrow)⟩
  case apart => exact h.apart

/-- A record whose `INSERT` is done is in the table, unless the conversation is gone. -/
theorem Reviewing.inserted (hidentified : Identified request) (h : Reviewing lower request moves s)
    {i : ι} {conversationId now : ℕ} {record : FailureRecord}
    (hrecord : s.party i = .record conversationId record)
    (hrow : conversationId ∈ s.shared.conversations.map Row.id) :
    ∃ review ∈ (s.shared.createFailureReview conversationId record now).reviews,
      review.conversationId = conversationId ∧ review.record = record := by
  obtain ⟨row, hmem, hid⟩ := List.mem_map.1 hrow
  have hpending := h.pending i conversationId record hrecord
  obtain ⟨username, token, requestId, fingerprint, response, queryFailure, hrequest, hof, -⟩ :=
    hpending.own row hmem hid
  have hrequestId := recordOf_requestId hof
  refine createFailureReview_inserts ?_ hpending.free hrow ?_
  · obtain ⟨hid, hfingerprint, hcode⟩ := hidentified.short hrequest
    cases queryFailure with
    | none => cases hof
    | some failure => exact accepted_of_recordOf hid hfingerprint (hcode failure rfl) hof
  · -- the chat that has used the ID would be this one, and it is not done
    intro hused
    obtain ⟨review, hreview, heq⟩ := List.mem_map.1 hused
    obtain ⟨done, hdone⟩ := h.ended review hreview i (by rw [heq, hrequestId, hrequest]; rfl)
    rw [hrecord] at hdone
    cases hdone

variable [DecidableEq ι]

/-- A request keeps the invariant. -/
theorem Reviewing.act (hidentified : Identified request) (h : Reviewing lower request moves s)
    {i : ι} {reply : Reply} {next : Database W R × Progress T W R}
    (hstep : RequestStep crypto lower request i reply (s.shared, s.party i) next) :
    Reviewing lower request (moves ++ [⟨some (i, reply), s, s.moved i next⟩]) (s.moved i next) := by
  obtain ⟨hrunning, -, hnext⟩ := hstep
  obtain ⟨hwritten, -⟩ := @effect_advance T W R crypto lower (request i) reply s.shared
    (s.party i) hrunning
  rw [← hnext] at hwritten
  have hle := hwritten.nextConversation_le
  -- the reviews that are there, and the one that the request adds
  have hreview : ∀ review ∈ next.1.reviews, (∃ old ∈ s.shared.reviews,
      old.conversationId = review.conversationId ∧ old.record = review.record) ∨
        s.party i = .record review.conversationId review.record ∧
          review.conversationId ∈ s.shared.conversations.map Row.id :=
    fun review hmem => hwritten.review_cases hmem
  -- a row with an ID from before the step was there before it
  have hold : ∀ row ∈ next.1.conversations, row.id < s.shared.nextConversation →
      row ∈ s.shared.conversations := by
    intro row hrow hlt
    rcases hwritten.row_cases hrow with hrow | ⟨hid, -⟩
    · exact hrow
    · exact absurd hid hlt.ne
  -- the ID of a conversation that has just been saved is beyond all others
  have hentered : ∀ conversationId record, next.2 = .record conversationId record →
      conversationId = s.shared.nextConversation ∧
        Pending lower (request i) next.1 conversationId record := by
    intro conversationId record hrecord
    rw [hnext] at hrecord
    obtain ⟨hid, now, conversation, hreports, hsaved⟩ := saved_of_record hrunning hrecord
    rw [← hnext] at hsaved
    refine ⟨hid, ?_⟩
    rw [hsaved]
    refine ⟨Nat.lt_succ_self _, fun hmem => ?_, fun row hrow hrowId => ?_⟩
    · obtain ⟨review, hreview, hreviewId⟩ := List.mem_map.1 hmem
      obtain ⟨-, row, hrow, hrowId, -⟩ := h.own review hreview
      exact absurd (hrowId.trans (hreviewId.trans hid)) (h.fresh row hrow).ne
    · rcases List.mem_append.1 hrow with hrow | hrow
      · exact absurd (hrowId.trans hid) (h.fresh row hrow).ne
      · rw [List.mem_singleton.1 hrow]
        exact hreports
  constructor
  case toRecorded =>
    constructor
    case once => exact hwritten.once h.once
    case own =>
      intro review hmem
      rcases hreview review hmem with ⟨old, hmemOld, hid, hrecord⟩ | ⟨hrecord, hrow⟩
      · obtain ⟨j, row, hrow, hrowId, hreports⟩ := h.own old hmemOld
        rw [hid] at hrowId
        exact ⟨j, row, hwritten.row_kept hmem hrow hrowId, hrowId, hrecord ▸ hreports⟩
      · obtain ⟨row, hrow, hrowId⟩ := List.mem_map.1 hrow
        exact ⟨i, row, hwritten.row_kept hmem hrow hrowId, hrowId,
          (h.pending i _ _ hrecord).own row hrow hrowId⟩
    case kept =>
      rw [List.forall_mem_append, List.forall_mem_singleton]
      refine ⟨fun move hmove j reply' conversationId record hactor hreply hrecord hrow => ?_,
        fun j reply' conversationId record hactor hreply hrecord hrow => ?_⟩
      · -- the conversation is still there, so its review is
        have hlt := h.past move hmove j conversationId record hrecord
        obtain ⟨row, hmem, hid⟩ := List.mem_map.1 hrow
        have hrowOld : conversationId ∈ s.shared.conversations.map Row.id :=
          hid ▸ List.mem_map_of_mem (hold row hmem (hid ▸ hlt))
        obtain ⟨review, hreviewOld, rfl, rfl⟩ := h.kept move hmove j reply' conversationId record
          hactor hreply hrecord hrowOld
        exact hwritten.review_kept h.ids hreviewOld hrow
      · cases hactor
        obtain ⟨now, hfst⟩ := @fst_advance_record T W R crypto lower (request i) reply
          s.shared conversationId record hreply
        rw [← hrecord, ← hnext] at hfst
        rw [System.moved_shared, hfst] at hrow ⊢
        rw [conversations_createFailureReview] at hrow
        exact h.inserted hidentified hrecord hrow
  case ids => exact hwritten.ids h.ids h.fresh
  case fresh =>
    intro row hrow
    rcases hwritten.row_cases hrow with hrow | ⟨hid, hlt⟩
    · exact (h.fresh row hrow).trans_le hle
    · exact hid ▸ hlt
  case past =>
    rw [List.forall_mem_append, List.forall_mem_singleton]
    exact ⟨fun move hmove j conversationId record hrecord =>
      (h.past move hmove j conversationId record hrecord).trans_le hle,
      fun j conversationId record hrecord =>
        (h.pending j conversationId record hrecord).saved.trans_le hle⟩
  case ended =>
    intro review hmem j hrequest
    rcases hreview review hmem with ⟨old, hmemOld, -, hrecord⟩ | ⟨hrecord, hrow⟩
    · rw [← hrecord] at hrequest
      obtain ⟨response, hdone⟩ := h.ended old hmemOld j hrequest
      have hj : j ≠ i := by
        rintro rfl
        exact hrunning response hdone
      exact ⟨response, by rw [System.moved_party_of_ne s hj, hdone]⟩
    · obtain ⟨row, hrow, hrowId⟩ := List.mem_map.1 hrow
      obtain ⟨username, token', requestId, fingerprint', response, queryFailure, hchat, hof, -⟩ :=
        (h.pending i _ _ hrecord).own row hrow hrowId
      rw [recordOf_requestId hof] at hrequest
      have hid : (request i).requestId? = some requestId := by rw [hchat]; rfl
      rw [hidentified.distinct hrequest hid, System.moved_party_self, hnext, hrecord]
      exact snd_advance_record
  case pending =>
    intro j
    by_cases hj : j = i
    · rw [hj, System.moved_party_self]
      exact fun conversationId record hrecord => (hentered conversationId record hrecord).2
    · rw [System.moved_party_of_ne s hj]
      intro conversationId record hrecord
      obtain ⟨hsaved, hfree, hown⟩ := h.pending j conversationId record hrecord
      refine ⟨hsaved.trans_le hle, fun hreviewed => ?_, fun row hrow hid => ?_⟩
      · obtain ⟨review, hmem, rfl⟩ := List.mem_map.1 hreviewed
        rcases hreview review hmem with ⟨old, hmemOld, hid, -⟩ | ⟨hother, -⟩
        · exact hfree (hid ▸ List.mem_map_of_mem hmemOld)
        · exact hj (h.apart j i _ _ _ hrecord hother)
      · exact hown row (hold row hrow (hid ▸ hsaved)) hid
  case apart =>
    have hnew : ∀ j, j ≠ i → ∀ conversationId record record',
        next.2 = .record conversationId record →
          s.party j ≠ .record conversationId record' := by
      intro j _ conversationId record record' hrecord hother
      exact (h.pending j conversationId record' hother).saved.ne (hentered _ _ hrecord).1
    intro j k conversationId record record'
    by_cases hj : j = i <;> by_cases hk : k = i
    · exact fun _ _ => hj.trans hk.symm
    · rw [hj, System.moved_party_self, System.moved_party_of_ne s hk]
      exact fun hrecord hother => absurd hother (hnew k hk _ _ _ hrecord)
    · rw [hk, System.moved_party_self, System.moved_party_of_ne s hj]
      exact fun hother hrecord => absurd hother (hnew j hj _ _ _ hrecord)
    · rw [System.moved_party_of_ne s hj, System.moved_party_of_ne s hk]
      exact h.apart j k conversationId record record'

/-- **No failure is recorded twice or with another conversation, and none gets lost.** -/
theorem recorded_once (hidentified : Identified request) {accounts : List Account}
    (h : History (RequestStep crypto lower request) OthersStep (started accounts) moves s) :
    Recorded lower request moves s := by
  have hreviewing : Reviewing lower request moves s :=
    History.rule (reviewing_started accounts)
      (fun _ _ _ _ _ hholds hstep _ => hholds.act hidentified hstep)
      (fun _ _ _ hholds hstep => hholds.others hstep) h fun _ _ => trivial
  exact hreviewing.toRecorded

end

/-! ### A run -/

def timedOut : QueryFailure where
  code := "SQL_TIMEOUT"
  stage := .execution
  category := "TIMEOUT"
  kind := .infrastructure
  retryable := true
  userSafeReason := ""
  suggestedAction := ""
  failedTool := some .sql

def failedChat (requestId : String) : Request Claims Unit Unit :=
  .chat (some ⟨"lee", "user", expireSeconds⟩) requestId "f"
    (some (⟨"stock?", none, none, none, none, none, none, none, none⟩, some timedOut))

/-- A user logs in, asks two questions that fail, deletes the first conversation and lists the
history. -/
def failedRequests : Fin 5 → Request Claims Unit Unit
  | 0 => .login "lee" "secret"
  | 1 => failedChat "r1"
  | 2 => failedChat "r2"
  | 3 => .deleteHistory (some ⟨"lee", "user", expireSeconds⟩) 0
  | 4 => .history (some ⟨"lee", "user", expireSeconds⟩)

/-- The second conversation is saved before the first failure is recorded, and the answer to that
`INSERT` is lost. -/
def failedRun : List (Move (Fin 5) Reply (Database Unit Unit) (Progress Claims Unit Unit)) ×
    System (Fin 5) (Database Unit Unit) (Progress Claims Unit Unit) :=
  replay (fun i reply => advance plainCrypto id (failedRequests i) reply)
    (started [⟨"lee", "secret", "user"⟩])
    [(0, .ok 0), (1, .ok 1), (2, .ok 1), (1, .ok 2), (2, .ok 2), (1, .lost 3), (3, .ok 4),
      (2, .ok 5), (3, .ok 6), (4, .ok 7), (4, .ok 8)]

theorem identified_failedRequests : Identified failedRequests where
  distinct {i j requestId} hi hj := by
    have hdistinct : ∀ i j, (failedRequests i).requestId? = (failedRequests j).requestId? →
        (failedRequests i).requestId? ≠ none → i = j := by decide
    exact hdistinct i j (hi.trans hj.symm) (hi ▸ Option.some_ne_none _)
  short {i token requestId fingerprint response queryFailure} h := by
    have hcode : ∀ failure ∈ some timedOut, failure.code.length ≤ 64 := by
      intro failure hfailure
      cases hfailure
      decide
    have hchats : ∀ i : Fin 5, i = 0 ∨ i = 1 ∨ i = 2 ∨ i = 3 ∨ i = 4 := by decide
    rcases hchats i with rfl | rfl | rfl | rfl | rfl
    · cases h
    · cases h
      exact ⟨by decide, by decide, hcode⟩
    · cases h
      exact ⟨by decide, by decide, hcode⟩
    · cases h
    · cases h

/-- Only the second failure is still there to be reviewed. -/
theorem recorded_once_failedRun : Recorded id failedRequests failedRun.1 failedRun.2 ∧
    failedRun.2.shared.reviews.map (·.record.requestId) = ["r2"] := by
  have hready : ∀ move ∈ failedRun.1, ∀ step ∈ move.actor,
      (move.before.party step.1).response?.isNone = true ∧
        ∀ claims ∈ (failedRequests step.1).token, claims ∈ move.before.shared.issued := by decide
  exact ⟨recorded_once identified_failedRequests (history_plain hready), by decide⟩

end Access
