import Ironsight.Access
import Ironsight.Codes

/-! Who is notified: the subscription table, the three recipient queries and the
two digest jobs that call them. None of the queries filters by organisation,
and both jobs list sites under the admin role, so what a recipient may see is
decided by the subscription alone. -/
namespace Ironsight.Notifications
open Tables Uuid Access

/-- The `site_ids` column: SQL `NULL`, the JSON value `null`, or a list. -/
inductive SiteFilter where
  | sqlNull
  | jsonNull
  | list (ids : List String)
  deriving DecidableEq

/-- A row of `notification_subscriptions`. -/
structure Subscription where
  id : Nat
  userId : UUID
  channel : String
  eventType : String
  severityMin : String := "low"
  siteIds : SiteFilter := .sqlNull
  quietStart : String := ""
  quietEnd : String := ""
  enabled : Bool := true
  deriving DecidableEq

/-- The directory, with the subscriptions. -/
structure State extends Directory where
  subscriptions : Table Subscription.id
  deriving DecidableEq

/-- `AlarmRecipient`. -/
structure AlarmRecipient where
  userId : UUID
  email : String := ""
  sms : String := ""
  deriving DecidableEq

/-- `notification_subscriptions s JOIN users u ON u.id = s.user_id`, which
meets soft-deleted users too. -/
def joined (db : State) : List (Subscription × User) :=
  db.subscriptions.rows.filterMap fun s => (db.users.find? s.userId).map fun u => (s, u)

/-! ## Alarm recipients -/

/-- `severityRank`; a missing key reads as zero. -/
def severityRank (severity : String) : Nat :=
  if severity = "low" then 1
  else if severity = "medium" then 2
  else if severity = "high" then 3
  else if severity = "critical" then 4
  else 0

/-- `now.UTC().Format("15:04")`. -/
def clock (now : Instant) : String :=
  let minutes := (now / 60000000000 % 1440).toNat
  Codes.padded 2 (minutes / 60) ++ ":" ++ Codes.padded 2 (minutes % 60)

/-- `withinQuietHours`. -/
def withinQuietHours (now : Instant) (start finish : String) : Bool :=
  if start = "" ∨ finish = "" then false
  else
    let hhmm := clock now
    if start ≤ finish then start ≤ hhmm ∧ hhmm < finish
    else start ≤ hhmm ∨ hhmm < finish

/-- The site scope of `MatchAlarmRecipients`: an empty list filters nothing. -/
def coversSite (siteId : String) : SiteFilter → Bool
  | .sqlNull | .jsonNull => true
  | .list ids => ids = [] ∨ siteId ∈ ids

/-- The wanted rank; an unknown severity counts as low. -/
def wanted (severity : String) : Nat := if severityRank severity = 0 then 1 else severityRank severity

/-- The filters (b), (c) and (d) of `MatchAlarmRecipients`. -/
def passes (siteId severity : String) (now : Instant) (s : Subscription) : Bool :=
  coversSite siteId s.siteIds && !(wanted severity < severityRank s.severityMin) &&
    !withinQuietHours now s.quietStart s.quietEnd

/-- The channel switch. -/
def addContact (channel : String) (u : User) (r : AlarmRecipient) : AlarmRecipient :=
  if channel = "email" then { r with email := if u.email ≠ "" then u.email else r.email }
  else if channel = "sms" then { r with sms := if u.phone ≠ "" then u.phone else r.sms }
  else r

/-- `merged[uid]`, created when missing, changed in place. -/
def mergeRecipient (merged : List AlarmRecipient) (uid : UUID) (change : AlarmRecipient → AlarmRecipient) :
    List AlarmRecipient :=
  if merged.any (fun r => r.userId = uid) then merged.map fun r => if r.userId = uid then change r else r
  else merged ++ [change { userId := uid }]

/-- `MatchAlarmRecipients`, in the order the rows were met. -/
def matchAlarmRecipients (db : State) (siteId severity : String) (now : Instant) : List AlarmRecipient :=
  let rows := (joined db).filter fun (s, _) => s.enabled ∧ s.eventType = "alarm_disposition"
  let merged := rows.foldl (fun merged (s, u) =>
    if passes siteId severity now s then mergeRecipient merged u.id (addContact s.channel u) else merged) []
  merged.filter fun r => ¬ (r.email = "" ∧ r.sms = "")

/-! ## Digests -/

/-- `site_ids IS NULL OR site_ids = 'null' OR site_ids ?| $1`. -/
def coversAny (siteIds : List String) : SiteFilter → Bool
  | .sqlNull | .jsonNull => true
  | .list ids => ids.any (siteIds.contains ·)

/-- The recipient query that the two digests share, with their event type. -/
def matchDigestRecipients (eventType : String) (db : State) (siteIds : List String) : List AlarmRecipient :=
  if siteIds = [] then []
  else ((joined db).filter fun (s, u) => s.enabled ∧ s.eventType = eventType ∧ s.channel = "email" ∧
      u.email ≠ "" ∧ coversAny siteIds s.siteIds).map (fun (_, u) => { userId := u.id, email := u.email })
    |>.dedup

/-- `MatchWeeklyDigestRecipients`. -/
def matchWeeklyDigestRecipients : State → List String → List AlarmRecipient :=
  matchDigestRecipients "weekly_digest"

/-- `MatchMonthlySummaryRecipients`. -/
def matchMonthlySummaryRecipients : State → List String → List AlarmRecipient :=
  matchDigestRecipients "monthly_summary"

/-- The counts of `ComplianceHeadlineMetrics` that the digest looks at. -/
structure Headline where
  totalViolations : Nat
  pendingCount : Nat
  deriving DecidableEq

/-- What the queries of one digest job answer: whether the site list and the
recipients can be read at all. -/
structure Faults where
  sites : Bool := false
  recipients : Bool := false
  deriving DecidableEq

/-- The site ids both jobs ask recipients for. -/
def digestSiteIds (db : State) (orgId : String) : List String :=
  (listSitesScoped db.toDirectory ⟨some .admin, orgId, []⟩).map Site.id

/-- The common tail of the two jobs: sites, then recipients. -/
def digestRecipients (query : State → List String → List AlarmRecipient) (db : State) (orgId : String)
    (faults : Faults) : List AlarmRecipient :=
  if faults.sites ∨ digestSiteIds db orgId = [] ∨ faults.recipients then []
  else query db (digestSiteIds db orgId)

/-- No violations, nothing pending and no person-hours to report. -/
def noActivity (skip : Bool) (headline : Headline) (personHours : Except String (Option Rat)) : Bool :=
  skip && headline.totalViolations = 0 && headline.pendingCount = 0 &&
    match personHours with
    | .ok none => true
    | .ok (some hours) => hours = 0
    | .error _ => false

/-- Whom `runWeeklyDigestForOrg` mails, given what the compliance queries of
the organisation answer. -/
def runWeeklyDigestForOrg (db : State) (orgId : String) (skip : Bool) (headline : Except String Headline)
    (personHours : Except String (Option Rat)) (faults : Faults) : List AlarmRecipient :=
  match headline with
  | .error _ => []
  | .ok headline =>
    if noActivity skip headline personHours then []
    else digestRecipients matchWeeklyDigestRecipients db orgId faults

/-- Whom `runMonthlyForOrg` mails; `summary` says whether there is one. -/
def runMonthlyForOrg (db : State) (orgId : String) (summary : Except String Bool) (faults : Faults) :
    List AlarmRecipient :=
  match summary with
  | .ok true => digestRecipients matchMonthlySummaryRecipients db orgId faults
  | .ok false | .error _ => []

/-! ## Tenancy -/

/-- One occasion to notify, with everything its code path reads. -/
inductive Notification where
  | alarm (siteId severity : String) (now : Instant)
  | weeklyDigest (orgId : String) (skip : Bool) (headline : Except String Headline)
      (personHours : Except String (Option Rat)) (faults : Faults)
  | monthlySummary (orgId : String) (summary : Except String Bool) (faults : Faults)

/-- The recipients the code chooses. -/
def recipients (db : State) : Notification → List AlarmRecipient
  | .alarm siteId severity now => matchAlarmRecipients db siteId severity now
  | .weeklyDigest orgId skip headline personHours faults =>
    runWeeklyDigestForOrg db orgId skip headline personHours faults
  | .monthlySummary orgId summary faults => runMonthlyForOrg db orgId summary faults

/-- The user's organisation owns the site, the site is assigned, or the role
sees everything. -/
def MaySee (db : State) (user : User) (siteId : String) : Prop :=
  globalViewRoles user.role = true ∨ siteId ∈ user.assignedSiteIds ∨
    ∃ site ∈ db.sites, site.id = siteId ∧ site.organizationId ≠ "" ∧
      user.organizationId = some site.organizationId

instance (db : State) (user : User) (siteId : String) : Decidable (MaySee db user siteId) :=
  inferInstanceAs (Decidable (_ ∨ _ ∨ ∃ site ∈ db.sites, _))

/-- The user may see the alarm's site, or one live site of the organisation. -/
def MaySeeSubject (db : State) (user : User) : Notification → Prop
  | .alarm siteId _ _ => MaySee db user siteId
  | .weeklyDigest orgId _ _ _ _ | .monthlySummary orgId _ _ =>
    ∃ site ∈ db.sites, site.deletedAt = none ∧ site.organizationId = orgId ∧ MaySee db user site.id

instance (db : State) (user : User) : (notification : Notification) → Decidable (MaySeeSubject db user notification)
  | .alarm _ _ _ => inferInstanceAs (Decidable (MaySee _ _ _))
  | .weeklyDigest _ _ _ _ _ | .monthlySummary _ _ _ => inferInstanceAs (Decidable (∃ site ∈ db.sites, _))

/-- Every recipient is a user who may see what the notification is about. -/
def RespectsTenancy (db : State) (notification : Notification) : Prop :=
  ∀ r ∈ recipients db notification, ∃ user ∈ db.users, user.id = r.userId ∧ MaySeeSubject db user notification

instance (db : State) (notification : Notification) : Decidable (RespectsTenancy db notification) :=
  inferInstanceAs (Decidable (∀ r ∈ recipients db notification, ∃ user ∈ db.users, _))

/-- The site list is open or names the site. -/
def Names (siteId : String) : SiteFilter → Prop
  | .sqlNull | .jsonNull => True
  | .list ids => siteId ∈ ids

/-- An enabled email subscription to the digest whose site list is open or
names a live site, of whatever organisation. -/
def DigestApplies (db : State) (eventType : String) (faults : Faults) (s : Subscription) (u : User) : Prop :=
  faults.sites = false ∧ faults.recipients = false ∧ s.enabled = true ∧ s.eventType = eventType ∧
    s.channel = "email" ∧ u.email ≠ "" ∧ ∃ site ∈ db.sites, site.deletedAt = none ∧ Names site.id s.siteIds

/-- Subscription `s` of user `u` takes part in the notification, by the columns
of the two rows. -/
def Applies (db : State) (s : Subscription) (u : User) : Notification → Prop
  | .alarm siteId severity now =>
    s.enabled = true ∧ s.eventType = "alarm_disposition" ∧ passes siteId severity now s = true ∧
      ((s.channel = "email" ∧ u.email ≠ "") ∨ (s.channel = "sms" ∧ u.phone ≠ ""))
  | .weeklyDigest _ skip headline personHours faults =>
    (∃ counts, headline = .ok counts ∧ noActivity skip counts personHours = false) ∧
      DigestApplies db "weekly_digest" faults s u
  | .monthlySummary _ summary faults => summary = .ok true ∧ DigestApplies db "monthly_summary" faults s u

/-- Every subscription that applies belongs to a user who may see the subject. -/
def SubscribersMaySee (db : State) (notification : Notification) : Prop :=
  ∀ s ∈ db.subscriptions, ∀ u ∈ db.users, s.userId = u.id → Applies db s u notification →
    MaySeeSubject db u notification

/-! ## Recipients are the subscribers that apply -/

private theorem mem_joined {db : State} {s : Subscription} {u : User} :
    (s, u) ∈ joined db ↔ s ∈ db.subscriptions ∧ u ∈ db.users ∧ s.userId = u.id := by
  simp only [joined, List.mem_filterMap, Option.map_eq_some_iff, Prod.mk.injEq, Table.find?_eq_some]
  constructor
  · rintro ⟨s, held, u, ⟨member, same⟩, rfl, rfl⟩
    exact ⟨held, member, same.symm⟩
  · rintro ⟨held, member, same⟩
    exact ⟨s, held, u, ⟨member, same.symm⟩, rfl, rfl⟩

/-- A recipient that can be reached. -/
private def Reachable (r : AlarmRecipient) : Prop := r.email ≠ "" ∨ r.sms ≠ ""

/-- What a row adds to its recipient. -/
private def Usable (s : Subscription) (u : User) : Prop :=
  (s.channel = "email" ∧ u.email ≠ "") ∨ (s.channel = "sms" ∧ u.phone ≠ "")

private theorem addContact_userId (channel : String) (u : User) (r : AlarmRecipient) :
    (addContact channel u r).userId = r.userId := by
  unfold addContact
  split
  · rfl
  · split <;> rfl

private theorem addContact_reachable (s : Subscription) (u : User) (r : AlarmRecipient) :
    Reachable (addContact s.channel u r) ↔ Reachable r ∨ Usable s u := by
  unfold addContact Reachable Usable
  by_cases email : s.channel = "email"
  · by_cases given : u.email = "" <;> simp [email, given]
  · by_cases sms : s.channel = "sms"
    · by_cases given : u.phone = "" <;> simp [sms, given]
    · simp [email, sms]

/-- A user who is in the map gets the contact added in place. -/
private theorem merge_listed_reachable {merged : List AlarmRecipient} {first : AlarmRecipient} (s : Subscription)
    {u : User} (uid : UUID) (listed : first ∈ merged) (own : first.userId = u.id) :
    (∃ r ∈ merged.map fun r => if r.userId = u.id then addContact s.channel u r else r,
      r.userId = uid ∧ Reachable r) ↔
      (∃ r ∈ merged, r.userId = uid ∧ Reachable r) ∨ (u.id = uid ∧ Usable s u) := by
  constructor
  · rintro ⟨r, member, same, reachable⟩
    obtain ⟨old, held, rfl⟩ := List.mem_map.mp member
    split at same
    · rename_i mine
      rw [addContact_userId] at same
      rw [if_pos mine, addContact_reachable] at reachable
      rcases reachable with before | usable
      · exact .inl ⟨old, held, same, before⟩
      · exact .inr ⟨mine ▸ same, usable⟩
    · rename_i other
      rw [if_neg other] at reachable
      exact .inl ⟨old, held, same, reachable⟩
  · rintro (⟨r, held, same, reachable⟩ | ⟨same, usable⟩)
    · refine ⟨_, List.mem_map.mpr ⟨r, held, rfl⟩, ?_, ?_⟩
      · split
        · rw [addContact_userId, same]
        · exact same
      · split
        · exact (addContact_reachable s u r).mpr (.inl reachable)
        · exact reachable
    · refine ⟨_, List.mem_map.mpr ⟨first, listed, rfl⟩, ?_, ?_⟩
      · rw [if_pos own, addContact_userId, own, same]
      · rw [if_pos own]
        exact (addContact_reachable s u first).mpr (.inr usable)

private theorem mergeRecipient_reachable (merged : List AlarmRecipient) (s : Subscription) (u : User) (uid : UUID) :
    (∃ r ∈ mergeRecipient merged u.id (addContact s.channel u), r.userId = uid ∧ Reachable r) ↔
      (∃ r ∈ merged, r.userId = uid ∧ Reachable r) ∨ (u.id = uid ∧ Usable s u) := by
  unfold mergeRecipient
  split
  · rename_i present
    obtain ⟨first, listed, own⟩ := List.any_eq_true.mp present
    exact merge_listed_reachable s uid listed (by simpa using own)
  · constructor
    · rintro ⟨r, member, same, reachable⟩
      rcases List.mem_append.mp member with old | new
      · exact .inl ⟨r, old, same, reachable⟩
      · rw [List.mem_singleton.mp new] at same reachable
        rw [addContact_userId] at same
        rw [addContact_reachable] at reachable
        exact .inr ⟨same, reachable.resolve_left (by simp [Reachable])⟩
    · rintro (⟨r, held, same, reachable⟩ | ⟨same, usable⟩)
      · exact ⟨r, List.mem_append_left _ held, same, reachable⟩
      · refine ⟨_, List.mem_append_right _ (List.mem_singleton_self _), ?_, ?_⟩
        · rw [addContact_userId, same]
        · exact (addContact_reachable s u _).mpr (.inr usable)

/-- The merge loop reaches a user exactly through one of the rows it took. -/
private theorem foldl_reachable (taken : Subscription → Bool) (uid : UUID) :
    ∀ (rows : List (Subscription × User)) (merged : List AlarmRecipient),
    (∃ r ∈ rows.foldl (fun merged (s, u) =>
        if taken s then mergeRecipient merged u.id (addContact s.channel u) else merged) merged,
      r.userId = uid ∧ Reachable r) ↔
      (∃ r ∈ merged, r.userId = uid ∧ Reachable r) ∨
        ∃ row ∈ rows, taken row.1 = true ∧ row.2.id = uid ∧ Usable row.1 row.2
  | [], merged => by simp
  | (s, u) :: rest, merged => by
    rw [List.foldl_cons, foldl_reachable taken uid rest]
    simp only [List.exists_mem_cons_iff, ← or_assoc]
    apply or_congr_left
    cases chosen : taken s with
    | true => simp [mergeRecipient_reachable]
    | false => simp

private theorem alarm_recipient_iff {db : State} {siteId severity : String} {now : Instant} {uid : UUID} :
    (∃ r ∈ matchAlarmRecipients db siteId severity now, r.userId = uid) ↔
      ∃ s ∈ db.subscriptions, ∃ u ∈ db.users, s.userId = u.id ∧ u.id = uid ∧
        Applies db s u (.alarm siteId severity now) := by
  have loop := foldl_reachable (passes siteId severity now) uid
    ((joined db).filter fun (s, _) => s.enabled ∧ s.eventType = "alarm_disposition") []
  have shape : (∃ r ∈ matchAlarmRecipients db siteId severity now, r.userId = uid) ↔
      ∃ r ∈ ((joined db).filter fun (s, _) => s.enabled ∧ s.eventType = "alarm_disposition").foldl
        (fun merged (s, u) =>
          if passes siteId severity now s then mergeRecipient merged u.id (addContact s.channel u) else merged) [],
        r.userId = uid ∧ Reachable r := by
    simp only [matchAlarmRecipients, List.mem_filter, Reachable, ← not_and_or, decide_eq_true_eq]
    constructor
    · rintro ⟨r, ⟨member, reachable⟩, same⟩
      exact ⟨r, member, same, by simpa using reachable⟩
    · rintro ⟨r, member, same, reachable⟩
      exact ⟨r, ⟨member, by simpa using reachable⟩, same⟩
  rw [shape, loop]
  simp only [List.not_mem_nil, false_and, exists_false, false_or, List.mem_filter, decide_eq_true_eq, Prod.exists,
    mem_joined, Applies]
  constructor
  · rintro ⟨s, u, ⟨⟨held, member, same⟩, enabled, kind⟩, chosen, mine, usable⟩
    exact ⟨s, held, u, member, same, mine, enabled, kind, chosen, usable⟩
  · rintro ⟨s, held, u, member, same, mine, enabled, kind, chosen, usable⟩
    exact ⟨s, u, ⟨⟨held, member, same⟩, enabled, kind⟩, chosen, mine, usable⟩

private theorem mem_digestSiteIds {db : State} {orgId id : String} :
    id ∈ digestSiteIds db orgId ↔ ∃ site ∈ db.sites, site.deletedAt = none ∧ site.id = id := by
  simp only [digestSiteIds, List.mem_map, mem_listSitesScoped]
  constructor
  · rintro ⟨site, ⟨held, live, _⟩, same⟩
    exact ⟨site, held, live, same⟩
  · rintro ⟨site, held, live, same⟩
    exact ⟨site, ⟨held, live, .inl rfl⟩, same⟩

private theorem coversAny_iff {siteIds : List String} (some_ : siteIds ≠ []) (sites : SiteFilter) :
    coversAny siteIds sites = true ↔ ∃ id ∈ siteIds, Names id sites := by
  cases sites with
  | sqlNull | jsonNull => simpa [coversAny, Names] using List.exists_mem_of_ne_nil _ some_
  | list ids =>
    simp only [coversAny, List.any_eq_true, List.contains_iff_mem, Names]
    exact exists_congr fun id => and_comm

private theorem mem_matchDigestRecipients {eventType : String} {db : State} {siteIds : List String} {uid : UUID} :
    (∃ r ∈ matchDigestRecipients eventType db siteIds, r.userId = uid) ↔
      ∃ s ∈ db.subscriptions, ∃ u ∈ db.users, s.userId = u.id ∧ u.id = uid ∧ s.enabled = true ∧
        s.eventType = eventType ∧ s.channel = "email" ∧ u.email ≠ "" ∧ ∃ id ∈ siteIds, Names id s.siteIds := by
  unfold matchDigestRecipients
  by_cases empty : siteIds = []
  · simp [empty]
  · rw [if_neg empty]
    simp only [List.mem_dedup, List.mem_map, List.mem_filter, decide_eq_true_eq, coversAny_iff empty, Prod.exists,
      mem_joined]
    constructor
    · rintro ⟨_, ⟨s, u, ⟨⟨held, member, same⟩, enabled, kind, channel, given, covered⟩, rfl⟩, mine⟩
      exact ⟨s, held, u, member, same, mine, enabled, kind, channel, given, covered⟩
    · rintro ⟨s, held, u, member, same, mine, enabled, kind, channel, given, covered⟩
      exact ⟨_, ⟨s, u, ⟨⟨held, member, same⟩, enabled, kind, channel, given, covered⟩, rfl⟩, mine⟩

private theorem digest_recipient_iff {eventType : String} {db : State} {orgId : String} {faults : Faults} {uid : UUID} :
    (∃ r ∈ digestRecipients (matchDigestRecipients eventType) db orgId faults, r.userId = uid) ↔
      ∃ s ∈ db.subscriptions, ∃ u ∈ db.users, s.userId = u.id ∧ u.id = uid ∧
        DigestApplies db eventType faults s u := by
  have covered (s : Subscription) : (∃ id ∈ digestSiteIds db orgId, Names id s.siteIds) ↔
      ∃ site ∈ db.sites, site.deletedAt = none ∧ Names site.id s.siteIds := by
    simp only [mem_digestSiteIds]
    constructor
    · rintro ⟨_, ⟨site, held, live, rfl⟩, named⟩
      exact ⟨site, held, live, named⟩
    · rintro ⟨site, held, live, named⟩
      exact ⟨site.id, ⟨site, held, live, rfl⟩, named⟩
  have unstopped : (∃ r ∈ digestRecipients (matchDigestRecipients eventType) db orgId faults, r.userId = uid) ↔
      faults.sites = false ∧ faults.recipients = false ∧
        ∃ r ∈ matchDigestRecipients eventType db (digestSiteIds db orgId), r.userId = uid := by
    unfold digestRecipients
    by_cases empty : digestSiteIds db orgId = []
    · simp [empty, matchDigestRecipients]
    · cases faults.sites <;> cases faults.recipients <;> simp [empty]
  rw [unstopped, mem_matchDigestRecipients]
  simp only [covered, DigestApplies]
  constructor
  · rintro ⟨sites, queried, s, held, u, member, same, mine, rest⟩
    exact ⟨s, held, u, member, same, mine, sites, queried, rest⟩
  · rintro ⟨s, held, u, member, same, mine, sites, queried, rest⟩
    exact ⟨sites, queried, s, held, u, member, same, mine, rest⟩

/-- The users a notification reaches are those with a subscription that applies. -/
theorem recipient_iff_applies (db : State) (notification : Notification) (uid : UUID) :
    (∃ r ∈ recipients db notification, r.userId = uid) ↔
      ∃ s ∈ db.subscriptions, ∃ u ∈ db.users, s.userId = u.id ∧ u.id = uid ∧ Applies db s u notification := by
  cases notification with
  | alarm siteId severity now => exact alarm_recipient_iff
  | weeklyDigest orgId skip headline personHours faults =>
    simp only [recipients, runWeeklyDigestForOrg, Applies]
    cases headline with
    | error err => simp
    | ok counts =>
      cases quiet : noActivity skip counts personHours with
      | true => simp [quiet]
      | false =>
        simp only [quiet, Bool.false_eq_true, if_false, Except.ok.injEq, exists_eq_left', true_and]
        exact digest_recipient_iff
  | monthlySummary orgId summary faults =>
    simp only [recipients, runMonthlyForOrg, Applies]
    rcases summary with err | found
    · simp
    · cases found with
      | false => simp
      | true =>
        simp only [true_and]
        exact digest_recipient_iff

/-- A notification goes only to users who may see its subject exactly if every
subscription that applies to it belongs to such a user. -/
theorem tenancy_iff_subscribers_may_see (db : State) (notification : Notification) :
    RespectsTenancy db notification ↔ SubscribersMaySee db notification := by
  constructor
  · intro respects s held u member same applies
    obtain ⟨r, chosen, mine⟩ := (recipient_iff_applies db notification u.id).mpr
      ⟨s, held, u, member, same, rfl, applies⟩
    obtain ⟨user, present, sameUser, maySee⟩ := respects r chosen
    rwa [Table.key_inj present member (sameUser.trans mine)] at maySee
  · intro subscribers r chosen
    obtain ⟨s, held, u, member, same, mine, applies⟩ :=
      (recipient_iff_applies db notification r.userId).mp ⟨r, chosen, rfl⟩
    exact ⟨u, member, mine, subscribers s held u member same applies⟩

private def twoCustomers : State where
  users := ⟨[⟨⟨10⟩, "depot", .customer, "Depot", "depot@co-2.example", "", some "co-2", ["BB-200"], 0, 0, none⟩], by decide⟩
  sites := ⟨[⟨"AA-100", "Lot", "co-1", none⟩, ⟨"BB-200", "Hangar", "co-2", none⟩], by decide⟩
  cameras := .empty
  subscriptions := ⟨[{ id := 1, userId := ⟨10⟩, channel := "email", eventType := "alarm_disposition" },
    { id := 2, userId := ⟨10⟩, channel := "email", eventType := "weekly_digest" }], by decide⟩

/-- A customer who never narrowed the site list is mailed about another
organisation's alarm, and gets that organisation's weekly digest. -/
theorem customer_mailed_across_tenants :
    ¬ RespectsTenancy twoCustomers (.alarm "AA-100" "high" 0) ∧
      ¬ RespectsTenancy twoCustomers (.weeklyDigest "co-1" true (.ok ⟨3, 0⟩) (.ok none) {}) := by
  decide +kernel

end Ironsight.Notifications
