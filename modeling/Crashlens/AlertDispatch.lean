import Crashlens.AlertChannels

/-!
# Alert dispatch

The job that tells a team of a new issue or of a regression. It reads the enabled channels of the
organisation for the project, and then writes to one channel after the other. What comes of a
channel is its own matter: an error fails that channel and no other. `Network` answers whatever goes
out, in any way it likes; `World` keeps what has gone out with the answers, and what has been
logged.
-/

namespace Crashlens.Alerts

open RowSecurity
open Tenant (Channel ChannelType ServiceError)

structure Settings where
  smtpHost : Option PyStr
  smtpPort : ℤ
  smtpUsername : Option PyStr
  smtpPassword : Option PyStr
  smtpFrom : Option PyStr
  smtpStarttls : Bool
  publicBaseUrl : Option PyStr

/-- `bool(value)` of an optional string. -/
def isSet (value : Option PyStr) : Bool := value.any fun s => !s.isEmpty

/-- The arguments of the job. -/
structure Job where
  orgId : ℕ
  projectId : ℕ
  issueId : PyStr
  kind : PyStr
  title : PyStr
  level : PyStr
  release : Option PyStr

/-! ## Texts -/

def alertSubject (kind projectName title : PyStr) : PyStr :=
  if kind = py "regression" then
    py "[Crashlens] Error came back in " ++ projectName ++ py ": " ++ title
  else py "[Crashlens] New error in " ++ projectName ++ py ": " ++ title

def slash : CodePoint := CodePoint.ofNat 0x2F

def alertLink (publicBaseUrl : Option PyStr) (orgId projectId issueId : PyStr) : PyStr :=
  let path := py "/org/" ++ orgId ++ py "/projects/" ++ projectId ++ py "/issues/" ++ issueId
  if isSet publicBaseUrl then rstrip (fun c => c = slash) (publicBaseUrl.getD []) ++ path else path

def alertBody (kind projectName title level link : PyStr) (release : Option PyStr) : PyStr :=
  let regression := kind = py "regression"
  let headline :=
    if regression then
      py "An error that was resolved has started happening again." ++
        if isSet release then py " It came back in " ++ release.getD [] ++ py "." else []
    else py "A new error just showed up."
  let body := headline ++ py "\n\nProject: " ++ projectName ++ py "\nError: " ++ title ++
    py "\nLevel: " ++ level ++ py "\n"
  let body :=
    body ++ if regression ∧ isSet release then py "Release: " ++ release.getD [] ++ py "\n" else []
  body ++ py "\nSee it here: " ++ link ++ py "\n"

def webhookPayload (kind projectId issueId title level ts : PyStr) (release : Option PyStr) :
    Dict :=
  [(py "kind", .str kind), (py "project_id", .str projectId), (py "issue_id", .str issueId),
    (py "title", .str title), (py "level", .str level), (py "ts", .str ts)] ++
    (release.map fun r => (py "release", Json.str r)).toList

def smtpIsConfigured (settings : Settings) : Bool :=
  isSet settings.smtpHost && isSet settings.smtpFrom

/-! ## The network -/

structure Mail where
  host : Option PyStr
  port : ℤ
  starttls : Bool
  login : Option (PyStr × PyStr)
  sender : PyStr
  recipients : PyStr
  subject : PyStr
  body : PyStr

inductive Send where
  | post (url : Json) (data : Dict) (headers : List (PyStr × PyStr))
  | mail (message : Mail)

/-- What comes of it: no error, one of those `_post_json` tries again after, or any other. -/
inductive Reply where
  | done
  | transient
  | raised
  deriving DecidableEq

abbrev Network (ω : Type) := Send → ω → Reply × ω

structure World (ω : Type) where
  net : ω
  sent : List (Send × Reply)
  log : List PyStr
  smtpWarningEmitted : Bool

section Sending

variable {ω : Type} (network : Network ω)

def World.send (q : Send) (w : World ω) : Reply × World ω :=
  let (reply, net) := network q w.net
  (reply, { w with net := net, sent := w.sent ++ [(q, reply)] })

def World.logged (line : PyStr) (w : World ω) : World ω := { w with log := w.log ++ [line] }

/-- The loop of `_post_json`, with the attempts that are left; whether it returns. -/
def attemptPosts (q : Send) : ℕ → Bool → World ω → Bool × World ω
  | 0, lastError, w => (!lastError, w)
  | n + 1, _, w =>
    match w.send network q with
    | (.done, w) => (true, w)
    | (.transient, w) => attemptPosts q n true w
    | (.raised, w) => (false, w)

def httpAttempts : ℕ := 2

def postJson (url : Json) (data : Dict) (headers : List (PyStr × PyStr)) :
    World ω → Bool × World ω :=
  attemptPosts network
    (.post url data ((py "Content-Type", py "application/json") :: headers)) httpAttempts false

def sendSlack (webhookUrl : Json) (textMessage : PyStr) : World ω → Bool × World ω :=
  postJson network webhookUrl [(py "text", .str textMessage)] []

def sendWebhook (url : Json) (payload : Dict) : World ω → Bool × World ω :=
  postJson network url payload [(py "X-Crashlens-Event", py "issue_alert")]

/-- `", ".join(recipients)` -/
def joinedRecipients : Json → Except ServiceError PyStr
  | .arr items => Tenant.joinRecipients items
  | .str s => .ok ((py ", ").intercalate (s.map fun c => [c]))
  | .obj fields => .ok ((py ", ").intercalate (fields.map Prod.fst))
  | _ => .error (.python .typeError)

/-- A header that spans lines is refused when it is set. -/
def header (value : PyStr) : Except ServiceError PyStr :=
  if (splitlines value).length ≤ 1 then .ok value else .error (.python .valueError)

/-- The message of `send_email`. -/
def composeEmail (recipients : Json) (subject body : PyStr) (settings : Settings) :
    Except ServiceError Mail := do
  let sender ← header (settings.smtpFrom.getD [])
  let recipients ← header (← joinedRecipients recipients)
  let subject ← header subject
  return {
    host := settings.smtpHost
    port := settings.smtpPort
    starttls := settings.smtpStarttls
    login :=
      if isSet settings.smtpUsername && isSet settings.smtpPassword then
        some (settings.smtpUsername.getD [], settings.smtpPassword.getD [])
      else none
    sender, recipients, subject, body }

def sendEmail (recipients : Json) (subject body : PyStr) (settings : Settings) (w : World ω) :
    Bool × World ω :=
  match composeEmail recipients subject body settings with
  | .error _ => (false, w)
  | .ok message =>
    match w.send network (.mail message) with
    | (.done, w) => (true, w)
    | (_, w) => (false, w)

end Sending

/-! ## What the job reads -/

/-- The reads that fail. -/
structure Outage where
  channels : Option ServiceError
  project : Option ServiceError
  members : Option ServiceError
  users : Option ServiceError

def available : Option ServiceError → Except ServiceError Unit
  | none => .ok ()
  | some e => .error e

def oneOrNone {α : Type} : List α → Except ServiceError (Option α)
  | [] => .ok none
  | [row] => .ok (some row)
  | _ => .error .multipleResults

/-- The enabled channels for every project or for this one. -/
def matching (db : Tenant.Db) (orgId projectId : ℕ) : List Channel :=
  select (.tenant orgId)
    (fun c => c.enabled && (c.projectId.isNone || c.projectId = some projectId)) db.channels

def loadChannelsAndProject (outage : Outage) (db : Tenant.Db) (orgId projectId : ℕ) :
    Except ServiceError (List Channel × PyStr) := do
  available outage.channels
  let channels := matching db orgId projectId
  available outage.project
  let row ← oneOrNone (select (.tenant orgId) (fun p => p.id = projectId) db.projects)
  return (channels, (row.map fun p => p.name.val).getD (uuidStr projectId))

def loadUsersByIds (outage : Outage) (db : Tenant.Db) (userIds : List ℕ) :
    Except ServiceError (List PyStr) :=
  if userIds.isEmpty then .ok []
  else do
    available outage.users
    return (db.users.filter fun u => userIds.contains u.id).map fun u => u.email.val

def loadMemberEmails (outage : Outage) (db : Tenant.Db) (orgId : ℕ) :
    Except ServiceError (List PyStr) := do
  available outage.members
  let rows := select (.tenant orgId) (fun _ => true) db.memberships
  let userIds := rows.map Tenant.Membership.userId
  return (← loadUsersByIds outage db userIds).filter fun email => !email.isEmpty

/-- The roster, where an email channel has no addresses of its own. -/
def memberEmailsFor (outage : Outage) (db : Tenant.Db) (settings : Settings) (orgId : ℕ)
    (channels : List Channel) : Except ServiceError (Option (List PyStr)) :=
  if smtpIsConfigured settings &&
      channels.any fun c => c.type = .email && !(c.config.get "to").truthy then
    (loadMemberEmails outage db orgId).map some
  else .ok none

/-! ## The job -/

structure Alert where
  subject : PyStr
  body : PyStr
  payload : Dict
  memberEmails : Option (List PyStr)

inductive Verdict where
  | delivered
  | failed
  | skipped
  deriving DecidableEq

structure Counters where
  delivered : ℕ
  failed : ℕ
  skipped : ℕ
  deriving DecidableEq

def Counters.add (k : Counters) : Verdict → Counters
  | .delivered => { k with delivered := k.delivered + 1 }
  | .failed => { k with failed := k.failed + 1 }
  | .skipped => { k with skipped := k.skipped + 1 }

section Lines

def decimalText (n : ℕ) : PyStr := py (toString n)

def smtpWarningLine : PyStr :=
  py ("dispatch_alerts: SMTP is not configured; skipping email " ++
    "alerts (set SMTP_HOST and SMTP_FROM to enable)")

def failureLine (channelId : ℕ) (type : ChannelType) : PyStr :=
  py "dispatch_alerts: channel delivery failed channel_id=" ++ uuidStr channelId ++ py " type=" ++
    type.str

def jobFields (job : Job) : PyStr :=
  py "org_id=" ++ uuidStr job.orgId ++ py " project_id=" ++ uuidStr job.projectId ++ py " kind=" ++
    job.kind

def noChannelsLine (job : Job) : PyStr := py "dispatch_alerts: no channels " ++ jobFields job

def doneLine (job : Job) (k : Counters) : PyStr :=
  py "dispatch_alerts: done " ++ jobFields job ++
    py " delivered=" ++ decimalText k.delivered ++ py " failed=" ++ decimalText k.failed ++
    py " skipped=" ++ decimalText k.skipped

end Lines

section Dispatch

variable {ω : Type} (network : Network ω) (settings : Settings) (alert : Alert)

def World.warnOnce (w : World ω) : World ω :=
  if w.smtpWarningEmitted then w
  else { w.logged smtpWarningLine with smtpWarningEmitted := true }

/-- `config.get("to") or member_emails or []` -/
def recipientsOf (config : Dict) (memberEmails : Option (List PyStr)) : Json :=
  Tenant.Json.or (config.get "to") (.arr ((memberEmails.getD []).map .str))

/-- What the `except` of the loop makes of a send. -/
def judge (c : Channel) : Bool × World ω → Verdict × World ω
  | (true, w) => (.delivered, w)
  | (false, w) => (.failed, w.logged (failureLine c.id c.type))

/-- One round of the loop. -/
def deliver (c : Channel) (w : World ω) : Verdict × World ω :=
  match c.type with
  | .email =>
    if smtpIsConfigured settings then
      let recipients := recipientsOf c.config alert.memberEmails
      if recipients.truthy then
        judge c (sendEmail network recipients alert.subject alert.body settings w)
      else (.skipped, w)
    else (.skipped, w.warnOnce)
  | .slack =>
    match c.config.item "webhook_url" with
    | .ok url => judge c (sendSlack network url alert.body w)
    | .error _ => judge c (false, w)
  | .webhook =>
    match c.config.item "url" with
    | .ok url => judge c (sendWebhook network url alert.payload w)
    | .error _ => judge c (false, w)

def fanOut : List Channel → Counters → World ω → Counters × World ω
  | [], k, w => (k, w)
  | c :: channels, k, w =>
    let (verdict, w) := deliver network settings alert c w
    fanOut channels (k.add verdict) w

end Dispatch

/-- What the channels are to send. -/
def composeAlert (settings : Settings) (job : Job) (projectName ts : PyStr)
    (memberEmails : Option (List PyStr)) : Alert :=
  let orgId := uuidStr job.orgId
  let projectId := uuidStr job.projectId
  let link := alertLink settings.publicBaseUrl orgId projectId job.issueId
  { subject := alertSubject job.kind projectName job.title
    body := alertBody job.kind projectName job.title job.level link job.release
    payload := webhookPayload job.kind projectId job.issueId job.title job.level ts job.release
    memberEmails }

def dispatchAlerts {ω : Type} (network : Network ω) (settings : Settings) (outage : Outage)
    (db : Tenant.Db) (ts : PyStr) (job : Job) (w : World ω) :
    Except ServiceError Counters × World ω :=
  match loadChannelsAndProject outage db job.orgId job.projectId with
  | .error e => (.error e, w)
  | .ok (channels, projectName) =>
    if channels.isEmpty then (.ok ⟨0, 0, 0⟩, w.logged (noChannelsLine job))
    else
      match memberEmailsFor outage db settings job.orgId channels with
      | .error e => (.error e, w)
      | .ok memberEmails =>
        let alert := composeAlert settings job projectName ts memberEmails
        let (counters, w) := fanOut network settings alert channels ⟨0, 0, 0⟩ w
        (.ok counters, w.logged (doneLine job counters))

/-! ## One channel -/

/-- The exchange of `_post_json` with so many attempts, and whether it returns. -/
inductive Posted (q : Send) : ℕ → List (Send × Reply) → Bool → Prop where
  | done {n : ℕ} : Posted q (n + 1) [(q, .done)] true
  | raised {n : ℕ} : Posted q (n + 1) [(q, .raised)] false
  | again {n : ℕ} {rest : List (Send × Reply)} {returned : Bool} (h : Posted q n rest returned) :
      Posted q (n + 1) ((q, .transient) :: rest) returned
  | exhausted : Posted q 0 [] false

def verdictOf (returned : Bool) : Verdict := if returned then .delivered else .failed

/-- What a channel has to come to: the exchange for it and the verdict, whatever the other channels
come to. -/
inductive Handled (settings : Settings) (alert : Alert) (c : Channel) :
    List (Send × Reply) → Verdict → Prop where
  | unconfigured (htype : c.type = .email) (hsmtp : smtpIsConfigured settings = false) :
      Handled settings alert c [] .skipped
  | nobody (htype : c.type = .email) (hsmtp : smtpIsConfigured settings = true)
      (hnobody : (recipientsOf c.config alert.memberEmails).truthy = false) :
      Handled settings alert c [] .skipped
  | unwritable {e : ServiceError} (htype : c.type = .email)
      (hcompose : composeEmail (recipientsOf c.config alert.memberEmails) alert.subject alert.body
        settings = .error e) :
      Handled settings alert c [] .failed
  | mailed {message : Mail} {reply : Reply} (htype : c.type = .email)
      (hsmtp : smtpIsConfigured settings = true)
      (hcompose : composeEmail (recipientsOf c.config alert.memberEmails) alert.subject alert.body
        settings = .ok message) :
      Handled settings alert c [(.mail message, reply)] (verdictOf (reply = .done))
  | slack {url : Json} {exchange : List (Send × Reply)} {returned : Bool}
      (htype : c.type = .slack) (hurl : c.config.item "webhook_url" = .ok url)
      (hposted : Posted (.post url [(py "text", .str alert.body)]
        [(py "Content-Type", py "application/json")]) httpAttempts exchange returned) :
      Handled settings alert c exchange (verdictOf returned)
  | webhook {url : Json} {exchange : List (Send × Reply)} {returned : Bool}
      (htype : c.type = .webhook) (hurl : c.config.item "url" = .ok url)
      (hposted : Posted (.post url alert.payload [(py "Content-Type", py "application/json"),
        (py "X-Crashlens-Event", py "issue_alert")]) httpAttempts exchange returned) :
      Handled settings alert c exchange (verdictOf returned)
  | slackKey {e : PyError} (htype : c.type = .slack)
      (hurl : c.config.item "webhook_url" = .error e) : Handled settings alert c [] .failed
  | webhookKey {e : PyError} (htype : c.type = .webhook) (hurl : c.config.item "url" = .error e) :
      Handled settings alert c [] .failed

/-- The lines of one channel: of the channel itself only its id and its type. -/
def channelLines (configured warned : Bool) (c : ℕ × ChannelType) : Verdict → List PyStr
  | .delivered => []
  | .failed => [failureLine c.1 c.2]
  | .skipped => if c.2 = .email && !configured && !warned then [smtpWarningLine] else []

/-- Whether the warning has been given after a channel. -/
def warnedAfter (configured warned : Bool) (c : ℕ × ChannelType) : Bool :=
  warned || c.2 = .email && !configured

section Channel

variable {ω : Type} {network : Network ω} {settings : Settings} {alert : Alert} {c : Channel}

/-- What has gone out on the way from one world to another, and nothing logged. -/
structure Sends (w w' : World ω) (exchange : List (Send × Reply)) : Prop where
  sent : w'.sent = w.sent ++ exchange
  log : w'.log = w.log
  warned : w'.smtpWarningEmitted = w.smtpWarningEmitted

theorem sends_none {w : World ω} : Sends w w [] := ⟨(List.append_nil _).symm, rfl, rfl⟩

theorem send_sends (network : Network ω) (q : Send) (w : World ω) :
    Sends w (w.send network q).2 [(q, (w.send network q).1)] := ⟨rfl, rfl, rfl⟩

theorem Sends.trans {w w₁ w₂ : World ω} {first rest : List (Send × Reply)} (h : Sends w w₁ first)
    (h' : Sends w₁ w₂ rest) : Sends w w₂ (first ++ rest) :=
  ⟨by rw [h'.sent, h.sent, List.append_assoc], h'.log.trans h.log, h'.warned.trans h.warned⟩

/-- With no attempt left the loop raises the error of the last one. -/
theorem attemptPosts_posted (q : Send) (n : ℕ) (lastError : Bool) (w : World ω)
    (hn : lastError = true ∨ n ≠ 0) :
    ∃ exchange, Posted q n exchange (attemptPosts network q n lastError w).1 ∧
      Sends w (attemptPosts network q n lastError w).2 exchange := by
  induction n generalizing lastError w with
  | zero =>
      obtain rfl | h := hn
      · exact ⟨[], .exhausted, sends_none⟩
      · exact absurd rfl h
  | succ n ih =>
      have hsend := send_sends network q w
      unfold attemptPosts
      match hw : w.send network q with
      | (.done, w₁) =>
          rw [hw] at hsend
          exact ⟨_, .done, hsend⟩
      | (.raised, w₁) =>
          rw [hw] at hsend
          exact ⟨_, .raised, hsend⟩
      | (.transient, w₁) =>
          rw [hw] at hsend
          obtain ⟨rest, hposted, hrest⟩ := ih true w₁ (.inl rfl)
          exact ⟨_, .again hposted, hsend.trans hrest⟩

theorem postJson_posted (network : Network ω) (url : Json) (data : Dict)
    (headers : List (PyStr × PyStr)) (w : World ω) :
    ∃ exchange, Posted (.post url data ((py "Content-Type", py "application/json") :: headers))
        httpAttempts exchange (postJson network url data headers w).1 ∧
      Sends w (postJson network url data headers w).2 exchange :=
  attemptPosts_posted _ httpAttempts false w (.inr (Nat.succ_ne_zero 1))

theorem sendEmail_mailed (network : Network ω) {recipients : Json} {message : Mail} (w : World ω)
    (h : composeEmail recipients alert.subject alert.body settings = .ok message) :
    ∃ reply, (sendEmail network recipients alert.subject alert.body settings w).1 =
        decide (reply = Reply.done) ∧
      Sends w (sendEmail network recipients alert.subject alert.body settings w).2
        [(.mail message, reply)] := by
  have hsend := send_sends network (.mail message) w
  unfold sendEmail
  rw [h]
  dsimp only
  match hw : w.send network (.mail message) with
  | (.done, w₁) =>
      rw [hw] at hsend
      exact ⟨.done, rfl, hsend⟩
  | (.transient, w₁) =>
      rw [hw] at hsend
      exact ⟨.transient, rfl, hsend⟩
  | (.raised, w₁) =>
      rw [hw] at hsend
      exact ⟨.raised, rfl, hsend⟩

/-- The channel has come to what it has to come to. -/
structure Delivers (settings : Settings) (alert : Alert) (c : Channel) (w w' : World ω)
    (exchange : List (Send × Reply)) (verdict : Verdict) : Prop where
  handled : Handled settings alert c exchange verdict
  sent : w'.sent = w.sent ++ exchange
  log : w'.log = w.log ++
    channelLines (smtpIsConfigured settings) w.smtpWarningEmitted (c.id, c.type) verdict
  warned : w'.smtpWarningEmitted =
    warnedAfter (smtpIsConfigured settings) w.smtpWarningEmitted (c.id, c.type)

theorem delivers_judge {w w₁ : World ω} {returned : Bool} {exchange : List (Send × Reply)}
    (hsends : Sends w w₁ exchange)
    (hhandled : Handled settings alert c exchange (verdictOf returned))
    (hwarned : c.type ≠ .email ∨ smtpIsConfigured settings = true) :
    Delivers settings alert c w (judge c (returned, w₁)).2 exchange (judge c (returned, w₁)).1 := by
  have hkept : w.smtpWarningEmitted =
      warnedAfter (smtpIsConfigured settings) w.smtpWarningEmitted (c.id, c.type) := by
    unfold warnedAfter
    obtain htype | hsmtp := hwarned
    · simp [htype]
    · simp [hsmtp]
  cases returned with
  | true =>
      refine ⟨hhandled, hsends.sent, ?_, hsends.warned.trans hkept⟩
      exact hsends.log.trans (List.append_nil _).symm
  | false =>
      refine ⟨hhandled, hsends.sent, ?_, hsends.warned.trans hkept⟩
      have hlog : (w₁.logged (failureLine c.id c.type)).log =
          w₁.log ++ [failureLine c.id c.type] := rfl
      exact hlog.trans (by rw [hsends.log]; rfl)

theorem delivers_warnOnce {w : World ω} (htype : c.type = .email)
    (hsmtp : smtpIsConfigured settings = false) :
    Delivers settings alert c w w.warnOnce [] .skipped := by
  refine ⟨.unconfigured htype hsmtp, ?_, ?_, ?_⟩
  all_goals
    unfold World.warnOnce
    cases hw : w.smtpWarningEmitted <;>
      simp [World.logged, channelLines, warnedAfter, htype, hsmtp, hw]

/-- One round of the loop, whatever the network does. -/
theorem deliver_delivers (network : Network ω) (settings : Settings) (alert : Alert) (c : Channel)
    (w : World ω) :
    ∃ exchange, Delivers settings alert c w (deliver network settings alert c w).2 exchange
      (deliver network settings alert c w).1 := by
  unfold deliver
  cases htype : c.type with
  | email =>
      dsimp only
      cases hsmtp : smtpIsConfigured settings with
      | false => exact ⟨[], delivers_warnOnce htype hsmtp⟩
      | true =>
          rw [if_pos rfl]
          cases hnobody : (recipientsOf c.config alert.memberEmails).truthy with
          | false =>
              refine ⟨[], .nobody htype hsmtp hnobody, (List.append_nil _).symm, ?_, ?_⟩
              · simp [channelLines, hsmtp]
              · simp [warnedAfter, hsmtp]
          | true =>
              rw [if_pos rfl]
              cases hcompose : composeEmail (recipientsOf c.config alert.memberEmails)
                  alert.subject alert.body settings with
              | error e =>
                  have hemail : sendEmail network (recipientsOf c.config alert.memberEmails)
                      alert.subject alert.body settings w = (false, w) := by
                    rw [sendEmail, hcompose]
                  rw [hemail]
                  exact ⟨[], delivers_judge sends_none (.unwritable htype hcompose) (.inr hsmtp)⟩
              | ok message =>
                  obtain ⟨reply, hreply, hsends⟩ := sendEmail_mailed network w hcompose
                  have hhandled : Handled settings alert c [(.mail message, reply)]
                      (verdictOf (sendEmail network (recipientsOf c.config alert.memberEmails)
                        alert.subject alert.body settings w).1) := by
                    rw [hreply]
                    exact .mailed htype hsmtp hcompose
                  exact ⟨_, delivers_judge hsends hhandled (.inr hsmtp)⟩
  | slack =>
      dsimp only
      have hother : c.type ≠ .email := by rw [htype]; exact ChannelType.noConfusion
      cases hurl : c.config.item "webhook_url" with
      | error e => exact ⟨[], delivers_judge sends_none (.slackKey htype hurl) (.inl hother)⟩
      | ok url =>
          obtain ⟨exchange, hposted, hsends⟩ :=
            postJson_posted network url [(py "text", .str alert.body)] [] w
          exact ⟨exchange, delivers_judge hsends (.slack htype hurl hposted) (.inl hother)⟩
  | webhook =>
      dsimp only
      have hother : c.type ≠ .email := by rw [htype]; exact ChannelType.noConfusion
      cases hurl : c.config.item "url" with
      | error e => exact ⟨[], delivers_judge sends_none (.webhookKey htype hurl) (.inl hother)⟩
      | ok url =>
          obtain ⟨exchange, hposted, hsends⟩ := postJson_posted network url
            alert.payload [(py "X-Crashlens-Event", py "issue_alert")] w
          exact ⟨exchange, delivers_judge hsends (.webhook htype hurl hposted) (.inl hother)⟩

end Channel

/-! ## All channels -/

/-- The lines of the loop. -/
def loopLines (configured : Bool) : Bool → List (ℕ × ChannelType) → List Verdict → List PyStr
  | warned, c :: channels, v :: verdicts =>
    channelLines configured warned c v ++
      loopLines configured (warnedAfter configured warned c) channels verdicts
  | _, _, _ => []

def Counters.total (k : Counters) : ℕ := k.delivered + k.failed + k.skipped

theorem Counters.total_add (k : Counters) (v : Verdict) : (k.add v).total = k.total + 1 := by
  cases v <;> simp only [Counters.add, Counters.total] <;> omega

section Loop

variable {ω : Type} {network : Network ω} {settings : Settings} {alert : Alert}

/-- The loop comes to an exchange and a verdict for each channel, in order. -/
theorem fanOut_handles (channels : List Channel) (k : Counters) (w : World ω) :
    ∃ record : List (List (Send × Reply) × Verdict),
      List.Forall₂ (fun c r => Handled settings alert c r.1 r.2) channels record ∧
      (fanOut network settings alert channels k w).1 =
        (record.map Prod.snd).foldl Counters.add k ∧
      (fanOut network settings alert channels k w).2.sent =
        w.sent ++ (record.map Prod.fst).flatten ∧
      (fanOut network settings alert channels k w).2.log = w.log ++
        loopLines (smtpIsConfigured settings) w.smtpWarningEmitted
          (channels.map fun c => (c.id, c.type)) (record.map Prod.snd) := by
  induction channels generalizing k w with
  | nil => exact ⟨[], .nil, rfl, (List.append_nil _).symm, (List.append_nil _).symm⟩
  | cons c channels ih =>
      obtain ⟨exchange, hc⟩ := deliver_delivers network settings alert c w
      have hcons : fanOut network settings alert (c :: channels) k w =
          fanOut network settings alert channels
            (k.add (deliver network settings alert c w).1)
            (deliver network settings alert c w).2 := rfl
      obtain ⟨record, hrecord, hcounters, hsent, hlog⟩ := ih
        (k.add (deliver network settings alert c w).1) (deliver network settings alert c w).2
      refine ⟨(exchange, _) :: record, .cons hc.handled hrecord, ?_, ?_, ?_⟩
      · rw [hcons, hcounters]
        rfl
      · rw [hcons, hsent, hc.sent, List.append_assoc]
        rfl
      · rw [hcons, hlog, hc.log, hc.warned, List.append_assoc]
        rfl

theorem total_foldl (verdicts : List Verdict) (k : Counters) :
    (verdicts.foldl Counters.add k).total = k.total + verdicts.length := by
  induction verdicts generalizing k with
  | nil => rfl
  | cons v verdicts ih =>
      rw [List.foldl_cons, ih, Counters.total_add, List.length_cons]
      omega

end Loop

/-! ## The job, over any run of the services -/

/-- All lines of the job: of the channels only their ids and types. -/
def jobLines (settings : Settings) (warned : Bool) (job : Job) (channels : List (ℕ × ChannelType))
    (verdicts : List Verdict) : List PyStr :=
  if channels.isEmpty then [noChannelsLine job]
  else loopLines (smtpIsConfigured settings) warned channels verdicts ++
    [doneLine job (verdicts.foldl Counters.add ⟨0, 0, 0⟩)]

theorem posted_nonempty {q : Send} {n : ℕ} {exchange : List (Send × Reply)} {returned : Bool}
    (h : Posted q (n + 1) exchange returned) : exchange ≠ [] := by
  cases h <;> exact List.cons_ne_nil _ _

/-- A stored URL is found again, so something goes out. -/
theorem handled_sends {lib : Tenant.Libraries} {settings : Settings} {alert : Alert} {c : Channel}
    {exchange : List (Send × Reply)} {verdict : Verdict} (hshaped : c.Shaped lib)
    (h : Handled settings alert c exchange verdict) (htype : c.type ≠ .email) : exchange ≠ [] := by
  have hslack : c.type = .slack → ∃ url, c.config.item "webhook_url" = .ok url := by
    intro hc
    rw [Channel.Shaped, hc] at hshaped
    obtain ⟨url, -, hconfig⟩ := hshaped
    exact ⟨.str url, by rw [hconfig]; rfl⟩
  have hwebhook : c.type = .webhook → ∃ url, c.config.item "url" = .ok url := by
    intro hc
    rw [Channel.Shaped, hc] at hshaped
    obtain ⟨url, -, hconfig⟩ := hshaped
    exact ⟨.str url, by rw [hconfig]; rfl⟩
  cases h with
  | unconfigured hc => exact absurd hc htype
  | nobody hc => exact absurd hc htype
  | unwritable hc => exact absurd hc htype
  | mailed hc => exact absurd hc htype
  | slack _ _ hposted => exact posted_nonempty hposted
  | webhook _ _ hposted => exact posted_nonempty hposted
  | slackKey hc hurl =>
      obtain ⟨url, hok⟩ := hslack hc
      rw [hok] at hurl
      cases hurl
  | webhookKey hc hurl =>
      obtain ⟨url, hok⟩ := hwebhook hc
      rw [hok] at hurl
      cases hurl

theorem loadChannelsAndProject_channels {outage : Outage} {db : Tenant.Db} {orgId projectId : ℕ}
    {channels : List Channel} {projectName : PyStr}
    (h : loadChannelsAndProject outage db orgId projectId = .ok (channels, projectName)) :
    channels = matching db orgId projectId := by
  obtain ⟨_, -, h⟩ := bind_ok h
  obtain ⟨_, -, h⟩ := bind_ok h
  obtain ⟨_, -, h⟩ := bind_ok h
  exact (Prod.mk.inj (Except.ok.inj h)).1.symm

/-- What a job that gets through has done. -/
structure Dispatched {ω : Type} (lib : Tenant.Libraries) (settings : Settings) (outage : Outage)
    (db : Tenant.Db) (ts : PyStr) (job : Job) (w w' : World ω) (counters : Counters)
    (projectName : PyStr) (memberEmails : Option (List PyStr))
    (record : List (List (Send × Reply) × Verdict)) : Prop where
  project : loadChannelsAndProject outage db job.orgId job.projectId =
    .ok (matching db job.orgId job.projectId, projectName)
  roster : matching db job.orgId job.projectId ≠ [] →
    memberEmailsFor outage db settings job.orgId (matching db job.orgId job.projectId) =
      .ok memberEmails
  handled : List.Forall₂ (fun c r => c.Shaped lib ∧
      Handled settings (composeAlert settings job projectName ts memberEmails) c r.1 r.2 ∧
      (c.type ≠ .email → r.1 ≠ [])) (matching db job.orgId job.projectId) record
  sent : w'.sent = w.sent ++ (record.map Prod.fst).flatten
  log : w'.log = w.log ++ jobLines settings w.smtpWarningEmitted job
    ((matching db job.orgId job.projectId).map fun c => (c.id, c.type)) (record.map Prod.snd)
  counted : counters = (record.map Prod.snd).foldl Counters.add ⟨0, 0, 0⟩
  total : counters.delivered + counters.failed + counters.skipped =
    (matching db job.orgId job.projectId).length

section Job

variable {ω : Type} {lib : Tenant.Libraries} {network : Network ω} {settings : Settings}
  {outage : Outage} {db : Tenant.Db} {ts : PyStr} {job : Job} {w : World ω}

theorem dispatchAlerts_error {e : ServiceError}
    (h : (dispatchAlerts network settings outage db ts job w).1 = .error e) :
    (dispatchAlerts network settings outage db ts job w).2 = w := by
  unfold dispatchAlerts at h ⊢
  split
  · rfl
  · next channels projectName hload =>
      rw [hload] at h
      dsimp only at h
      split at h
      · cases h
      · next hsome =>
          rw [if_neg hsome]
          split
          · rfl
          · next memberEmails hmembers =>
              rw [hmembers] at h
              cases h

theorem dispatchAlerts_ok (hdb : db.ChannelsShaped lib) {counters : Counters}
    (h : (dispatchAlerts network settings outage db ts job w).1 = .ok counters) :
    ∃ projectName memberEmails record, Dispatched lib settings outage db ts job w
      (dispatchAlerts network settings outage db ts job w).2 counters projectName memberEmails
      record := by
  unfold dispatchAlerts at h ⊢
  cases hload : loadChannelsAndProject outage db job.orgId job.projectId with
  | error e =>
      rw [hload] at h
      cases h
  | ok loaded =>
      obtain ⟨channels, projectName⟩ := loaded
      have hchannels := loadChannelsAndProject_channels hload
      subst hchannels
      rw [hload] at h
      dsimp only at h ⊢
      cases hnil : (matching db job.orgId job.projectId).isEmpty with
      | true =>
          rw [hnil, if_pos rfl] at h
          rw [if_pos rfl]
          have hempty := List.isEmpty_iff.mp hnil
          cases h
          refine ⟨projectName, none, [], hload, fun hne => absurd hempty hne, ?_, ?_, ?_, rfl, ?_⟩
          · rw [hempty]
            exact .nil
          · exact (List.append_nil _).symm
          · rw [hempty]
            rfl
          · rw [hempty]
            rfl
      | false =>
          have hsome : matching db job.orgId job.projectId ≠ [] := by
            simpa using hnil
          rw [hnil, if_neg Bool.false_ne_true] at h
          rw [if_neg Bool.false_ne_true]
          cases hmembers : memberEmailsFor outage db settings job.orgId
              (matching db job.orgId job.projectId) with
          | error e =>
              rw [hmembers] at h
              cases h
          | ok memberEmails =>
              rw [hmembers] at h
              dsimp only at h ⊢
              obtain ⟨record, hrecord, hcounters, hsent, hlog⟩ := fanOut_handles
                (matching db job.orgId job.projectId) ⟨0, 0, 0⟩ w
              have hcounted := (Except.ok.inj h).symm.trans hcounters
              refine ⟨projectName, memberEmails, record, hload, fun _ => hmembers, ?_, hsent, ?_,
                hcounted, ?_⟩
              · refine List.forall₂_iff_get.mpr ⟨hrecord.length_eq, fun i hc hr => ?_⟩
                have hi := (List.forall₂_iff_get.mp hrecord).2 i hc hr
                have hshaped := hdb _ (mem_select.mp (List.get_mem _ ⟨i, hc⟩)).1
                exact ⟨hshaped, hi, handled_sends hshaped hi⟩
              · rw [World.logged, hlog, hcounters, List.append_assoc, jobLines, if_neg]
                rw [List.isEmpty_map, hnil]
                exact Bool.false_ne_true
              · have htotal := total_foldl (record.map Prod.snd) ⟨0, 0, 0⟩
                rw [← hcounted, List.length_map, ← hrecord.length_eq] at htotal
                exact htotal.trans (Nat.zero_add _)

end Job

/-- In any state the services reach, whatever the network does. -/
theorem alerts_reach_every_channel {ω : Type} (lib : Tenant.Libraries) (srv : Tenant.Server)
    (calls : List (Tenant.Drawn × Tenant.Call)) (start : Tenant.Db) (network : Network ω)
    (settings : Settings) (outage : Outage) (ts : PyStr) (job : Job) (w : World ω)
    (hstart : start.ChannelsShaped lib) :
    let db := Tenant.runCalls lib srv calls start
    let outcome := dispatchAlerts network settings outage db ts job w
    (∀ e, outcome.1 = .error e → outcome.2 = w) ∧
      ∀ counters, outcome.1 = .ok counters → ∃ projectName memberEmails record,
        Dispatched lib settings outage db ts job w outcome.2 counters projectName memberEmails
          record :=
  ⟨fun _ h => dispatchAlerts_error h,
    fun _ h => dispatchAlerts_ok (Tenant.runCalls_keeps_shape calls hstart) h⟩

section Sample

def secureLibraries : Tenant.Libraries :=
  { Tenant.sampleLibraries with urlsplit := fun _ => .ok (py "https", py "hooks") }

/-- A channel for Slack, in organisation 1. -/
def slackCalls : List (Tenant.Drawn × Tenant.Call) :=
  [(⟨7, [], 8, 0⟩, .createChannel 1 (py "slack")
    (.obj [(py "webhook_url", .str (py "https://hooks/x"))]) none none)]

/-- The first request is lost. -/
def lossyNetwork : Network ℕ := fun _ n => (if n = 0 then .transient else .done, n + 1)

def sampleSettings : Settings := ⟨none, 587, none, none, none, true, none⟩

def noOutage : Outage := ⟨none, none, none, none⟩

def sampleJob : Job := ⟨1, 3, py "i", py "new", py "Error", py "error", none⟩

def sampleWorld : World ℕ := ⟨0, [], [], false⟩

theorem twoOrganisations_shaped : Tenant.twoOrganisations.ChannelsShaped secureLibraries :=
  fun _ hc => nomatch hc

theorem alert_reaches_slack :
    let db := Tenant.runCalls secureLibraries Tenant.sampleServer slackCalls Tenant.twoOrganisations
    let outcome := dispatchAlerts lossyNetwork sampleSettings noOutage db [] sampleJob sampleWorld
    (∀ e, outcome.1 = .error e → outcome.2 = sampleWorld) ∧
      ∀ counters, outcome.1 = .ok counters → ∃ projectName memberEmails record,
        Dispatched secureLibraries sampleSettings noOutage db [] sampleJob sampleWorld outcome.2
          counters projectName memberEmails record :=
  alerts_reach_every_channel secureLibraries Tenant.sampleServer slackCalls Tenant.twoOrganisations
    lossyNetwork sampleSettings noOutage [] sampleJob sampleWorld twoOrganisations_shaped

/-- The message to the channel goes through at the second attempt. -/
example :
    let db := Tenant.runCalls secureLibraries Tenant.sampleServer slackCalls Tenant.twoOrganisations
    let outcome := dispatchAlerts lossyNetwork sampleSettings noOutage db [] sampleJob sampleWorld
    outcome.1.toOption = some ⟨1, 0, 0⟩ ∧ outcome.2.sent.map Prod.snd = [.transient, .done] := by
  decide +kernel

end Sample

end Crashlens.Alerts
