import Crashlens.ServiceStatements

/-!
# What is stored of an alert channel

A channel is stored with the configuration that `validate_channel_config` returned for its type, and
no call changes the one without the other: in every state the services reach, a channel for Slack
has a webhook URL, a generic webhook a URL, both https, and an email channel the addresses to write
to or none. The two calls that write a configuration are followed in full; the other calls issue no
statement that does more to a channel than delete it.
-/

namespace Crashlens.Tenant

open Transactional RowSecurity

section Shape

variable (lib : Libraries)

/-- The stored URL is an https URL with a host. -/
def HttpsUrl (url : PyStr) : Prop :=
  ∃ netloc, lib.urlsplit url = .ok (py "https", netloc) ∧ netloc ≠ []

/-- What `validate_channel_config` returns for the type. -/
def ConfigShape : ChannelType → Dict → Prop
  | .email, config => config = [] ∨ ∃ addresses : List PyStr, addresses ≠ [] ∧
      (∀ a ∈ addresses, a ≠ [] ∧ matchesEmail lib a = true) ∧
      config = [(py "to", .arr (addresses.map .str))]
  | .slack, config => ∃ url, HttpsUrl lib url ∧ config = [(py "webhook_url", .str url)]
  | .webhook, config => ∃ url, HttpsUrl lib url ∧ config = [(py "url", .str url)]

def Channel.Shaped (c : Channel) : Prop := ConfigShape lib c.type c.config

def Db.ChannelsShaped (db : Db) : Prop := ∀ c ∈ db.channels, c.Shaped lib

end Shape

/-! ## The validator -/

section Validator

variable {lib : Libraries}

theorem isHttpsUrl_shape {value : Json} (h : isHttpsUrl lib value = .ok true) :
    ∃ url, value = .str url ∧ HttpsUrl lib (strip lib.rt.isSpace url) := by
  unfold isHttpsUrl at h
  split at h
  · next s =>
      split at h
      · cases h
      · obtain ⟨⟨scheme, netloc⟩, hsplit, h⟩ := bind_ok h
        have hboth := Except.ok.inj h
        obtain ⟨hscheme, hnetloc⟩ := Bool.and_eq_true_iff.mp hboth
        refine ⟨s, rfl, netloc, ?_, by simpa using hnetloc⟩
        rw [← of_decide_eq_true hscheme]
        unfold ofPython at hsplit
        split at hsplit
        · next hurl => exact hurl.trans (congrArg _ (Except.ok.inj hsplit))
        · cases hsplit
  · cases h

theorem validateUrlConfig_shape {key message : String} {config stored : Dict}
    (h : validateUrlConfig lib key message config = .ok stored) :
    ∃ url, HttpsUrl lib url ∧ stored = [(py key, .str url)] := by
  obtain ⟨https, hhttps, h⟩ := bind_ok h
  cases https with
  | false => cases h
  | true =>
      obtain ⟨url, hurl, hshape⟩ := isHttpsUrl_shape hhttps
      rw [if_pos rfl, hurl] at h
      exact ⟨_, hshape, (Except.ok.inj h).symm⟩

theorem validateEmailConfig_shape {recipients : Json} {stored : Dict}
    (h : validateEmailConfig lib recipients = .ok stored) : ConfigShape lib .email stored := by
  unfold validateEmailConfig at h
  split at h
  · exact .inl (Except.ok.inj h).symm
  · next items =>
      split at h
      · cases h
      · next items hitems =>
          dsimp only at h
          split at h
          · cases h
          · next hvalid =>
              split at h
              · exact .inl (Except.ok.inj h).symm
              · next hsome =>
                  refine .inr ⟨_, fun hnil => hsome (by rw [hnil]; rfl), fun a ha => ?_,
                    (Except.ok.inj h).symm⟩
                  have hmatch := List.find?_eq_none.mp hvalid a ha
                  have hnonempty := (List.mem_filter.mp ha).2
                  exact ⟨by simpa using hnonempty, by simpa using hmatch⟩
  · cases h

theorem ofStr?_str (type : ChannelType) : ChannelType.ofStr? type.str = some type := by
  cases type <;> decide

theorem validateChannelConfig_shape {channelType : PyStr} {config : Json} {stored : Dict}
    (h : validateChannelConfig lib channelType config = .ok stored) :
    ∃ type, ChannelType.ofStr? channelType = some type ∧ ConfigShape lib type stored := by
  unfold validateChannelConfig at h
  cases htype : ChannelType.ofStr? channelType with
  | none =>
      rw [htype] at h
      cases h
  | some type =>
      rw [htype] at h
      refine ⟨type, rfl, ?_⟩
      obtain ⟨config, -, h⟩ := bind_ok h
      cases type with
      | email => exact validateEmailConfig_shape h
      | slack => exact validateUrlConfig_shape h
      | webhook => exact validateUrlConfig_shape h

theorem replacedConfig_shape {type : ChannelType} {config : Json} {stored : Dict} {target : PyStr}
    (h : replacedConfig lib type config = .ok (some (stored, target))) :
    ConfigShape lib type stored := by
  unfold replacedConfig at h
  split at h
  · cases h
  · obtain ⟨normalized, hnormalized, h⟩ := bind_ok h
    obtain ⟨_, -, h⟩ := bind_ok h
    cases h
    obtain ⟨type', htype, hshape⟩ := validateChannelConfig_shape hnormalized
    rw [ofStr?_str] at htype
    exact Option.some.inj htype ▸ hshape

end Validator

/-! ## The services -/

section Services

variable {lib : Libraries} {srv : Server} {draw : Drawn} {org : ℕ} {actor : Option ℕ}

/-- A call that writes no channel keeps what holds of every channel. -/
theorem statementsKeep_channels {call : Call} {P : Channel → Prop}
    (h : ∀ q, call.May draw q → q.writesChannel = false) :
    StatementsKeep srv (call.May draw) fun db => ∀ c ∈ db.channels, P c :=
  fun _ q _ _ _ hq hexec hdb c hc => hdb c ((exec_writes hexec).channels (h q hq) hc)

theorem shaped_recorded {α : Type} {scope : Scope ℕ} {db : Db} {action targetType : String}
    {targetId : Option PyStr} {data : Option Dict} {a : α} (hdb : db.ChannelsShaped lib) :
    Guarantees srv scope ((record lib draw org actor action targetType targetId data).bind
      fun _ => .pure a) db fun _ db' => db'.ChannelsShaped lib := by
  have hkeep : StatementsKeep srv (fun q => q.writesChannel = false) (Db.ChannelsShaped lib) :=
    fun _ _ _ _ _ hq hexec hdb c hc => hdb c ((exec_writes hexec).channels hq hc)
  exact guarantees_keeps hkeep (issuesOnly_recorded fun _ => rfl) hdb

theorem exec_insertChannel_row {id orgId : ℕ} {projectId : Option ℕ} {type : PyStr} {config : Dict}
    {row : Channel} {scope : Scope ℕ} {db db' : Db}
    (h : exec srv scope (.insertChannel id orgId projectId type config) db = (.ok row, db')) :
    db'.channels = db.channels ++ [row] ∧ ChannelType.ofStr? type = some row.type ∧
      row.config = config := by
  have hst := exec_ok h
  simp only [statement] at hst
  obtain ⟨config', hconfig, hst⟩ := bind_ok hst
  obtain ⟨_, -, hst⟩ := bind_ok hst
  obtain ⟨type', htype, hst⟩ := bind_ok hst
  obtain ⟨_, -, hst⟩ := bind_ok hst
  obtain ⟨_, -, hst⟩ := bind_ok hst
  cases hst
  refine ⟨rfl, ?_, bindJson_val hconfig⟩
  unfold checkValue at htype
  split at htype
  · next hsome =>
      cases htype
      exact hsome
  · cases htype

theorem createChannel_keeps_shape {channelType : PyStr} {config : Json} {projectId : Option ℕ} :
    (createChannel lib srv draw org channelType config projectId actor).Keeps
      (Db.ChannelsShaped lib) := by
  intro db hdb
  have hbind : createChannel lib srv draw org channelType config projectId actor =
      (Service.ofExcept (validateChannelConfig lib channelType config)).bind _ := rfl
  rw [hbind]
  cases hvalid : validateChannelConfig lib channelType config with
  | error e => exact hdb
  | ok normalized =>
      obtain ⟨type, htype, hshape⟩ := validateChannelConfig_shape hvalid
      refine keeps_session (I := Db.ChannelsShaped lib) (fun db hdb => ?_) db hdb
      refine guarantees_channelScopeMissing (guarantees_pure hdb) fun _ => ?_
      refine guarantees_execute fun row db₁ h => guarantees_raiseError fun target _ => ?_
      obtain ⟨hchannels, hrow, hconfig⟩ := exec_insertChannel_row h
      have hdb₁ : db₁.ChannelsShaped lib := by
        intro c hc
        rw [hchannels, List.mem_append, List.mem_singleton] at hc
        obtain hc | rfl := hc
        · exact hdb c hc
        · rw [htype] at hrow
          rw [Channel.Shaped, hconfig, ← Option.some.inj hrow]
          exact hshape
      exact shaped_recorded hdb₁

/-- The channel the session has read is the only one the update changes. -/
theorem exec_updateChannel_shaped {db db' : Db} {enabled : Option Bool} {config : Option Dict}
    {channelId : ℕ} {current : Channel} {rows : List Channel}
    (hcurrent : select (.tenant org) (fun c => c.id = channelId) db.channels = [current])
    (hconfig : ∀ d ∈ config, ConfigShape lib current.type d) (hdb : db.ChannelsShaped lib)
    (h : exec srv (.tenant org) (.updateChannel enabled config channelId) db = (.ok rows, db')) :
    db'.ChannelsShaped lib := by
  have hst := exec_ok h
  simp only [statement] at hst
  obtain ⟨config', hbind, hst⟩ := bind_ok hst
  cases hst
  have hconfig' : config' = config := by
    cases config with
    | none => exact (Except.ok.inj hbind).symm
    | some d =>
        obtain ⟨d', hd', hbind⟩ := bind_ok hbind
        cases hbind
        exact congrArg some (bindJson_val hd')
  subst hconfig'
  intro c hc
  obtain ⟨r, hr, rfl⟩ := List.mem_map.mp hc
  split
  · next hsel =>
      obtain ⟨hadmits, hid⟩ := Bool.and_eq_true_iff.mp hsel
      have hmem : r ∈ select (.tenant org) (fun c : Channel => c.id = channelId) db.channels :=
        mem_select.mpr ⟨hr, hadmits, hid⟩
      rw [hcurrent, List.mem_singleton] at hmem
      subst hmem
      have hshape : ConfigShape lib r.type (config'.getD r.config) := by
        cases config' with
        | none => exact hdb r hr
        | some d => exact hconfig d rfl
      exact hshape
  · exact hdb r hr

theorem exec_selectChannel_rows {scope : Scope ℕ} {db db' : Db} {channelId : ℕ}
    {rows : List Channel} (h : exec srv scope (.selectChannel channelId) db = (.ok rows, db')) :
    db' = db ∧ rows = select scope (fun c => c.id = channelId) db.channels := by
  cases exec_ok h
  exact ⟨rfl, rfl⟩

theorem updateChannel_keeps_shape {channelId : ℕ} {enabled : Option Bool} {config : Json} :
    (updateChannel lib srv draw org channelId enabled config actor).Keeps
      (Db.ChannelsShaped lib) := by
  refine keeps_session fun db hdb => guarantees_execute fun rows db₁ h => ?_
  obtain ⟨rfl, hrows⟩ := exec_selectChannel_rows h
  refine guarantees_bind (guarantees_oneOrNone (fun _ => hdb) fun current hcurrent => ?_)
  refine guarantees_raiseError fun replaced hreplaced => ?_
  split
  · exact guarantees_pure hdb
  · refine guarantees_execute fun rows db₂ h₂ => guarantees_one fun row _ => ?_
    refine shaped_recorded ?_
    refine exec_updateChannel_shaped (hrows.symm.trans hcurrent) (fun d hd => ?_) hdb h₂
    obtain ⟨⟨d', target⟩, rfl, rfl⟩ := Option.map_eq_some_iff.mp hd
    exact replacedConfig_shape hreplaced

theorem call_keeps_shape (call : Call) : (call.run lib srv draw).Keeps (Db.ChannelsShaped lib) := by
  have hother : (∀ q, call.May draw q → q.writesChannel = false) →
      (call.run lib srv draw).Keeps (Db.ChannelsShaped lib) :=
    fun h => call_keeps (statementsKeep_channels h)
  cases call with
  | createChannel => exact createChannel_keeps_shape
  | updateChannel => exact updateChannel_keeps_shape
  | _ =>
      refine hother fun q hq => ?_
      cases q with
      | insertChannel => cases hq
      | updateChannel => cases hq
      | _ => rfl

/-- Over any run of the services. -/
theorem runCalls_keeps_shape (calls : List (Drawn × Call)) {db : Db}
    (hdb : db.ChannelsShaped lib) : (runCalls lib srv calls db).ChannelsShaped lib := by
  induction calls generalizing db with
  | nil => exact hdb
  | cons c calls ih => exact ih (call_keeps_shape c.2 db hdb)

end Services

end Crashlens.Tenant
