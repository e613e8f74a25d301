import NanoMQ.ConfIdle
import NanoMQ.ConfPost
import NanoMQ.ConfRoundTrip

/-!
# When a whole request writes what its sections write

Both ways of writing the sections come down to one result for each of them. The five that both
dispatchers test alike are written alike. An array of credentials as it is emitted has entries that
its setter cannot use, so that only an empty one can be written at all. The section `auth_http` is
emitted as an object, which the request without a type passes over; the two agree where writing the
object would change nothing.
-/

namespace NanoMQ

open ByteBuffer Json

section Dispatch

def postedAuths (data : Json ℚ) (auths : ConfAuth) : Option ConfAuth :=
  ((data.getObjectItem (ascii "auth")).filter Json.isArray).elim (some auths) fun json =>
    setAuthConfig json auths

def postedAuthHttp (test : Json ℚ → Bool) (data : Json ℚ) (auth : ConfAuthHttp) :
    Option ConfAuthHttp :=
  ((data.getObjectItem (ascii "auth_http")).filter test).elim (some auth) fun json =>
    setAuthHttpConfig json auth

def posted {α : Type} (data : Json ℚ) (name : String) (set : Json ℚ → α → α) (old : α) : α :=
  ((data.getObjectItem (ascii name)).filter Json.isObject).elim old fun json => set json old

/-- The sections other than `auth` and `auth_http` as both dispatchers leave them. -/
def postedRest (data : Json ℚ) (c : ConfState) : ConfState :=
  { c with
    basic := posted data "basic" setBasicConfig c.basic
    tls := posted data "tls" setTlsConfig c.tls
    websocket := posted data "websocket" setWebsocketConfig c.websocket
    httpServer := posted data "http_server" setHttpConfig c.httpServer
    sqlite := posted data "sqlite" setSqliteConfig c.sqlite }

variable {data : Json ℚ} {test : Json ℚ → Bool}

/-- A section whose setter always succeeds, behind the same test in both dispatchers. -/
theorem updateSection_posted {α : Type} (data : Json ℚ) (test : Json ℚ → Bool) (s : ConfSection)
    (get : ConfSections → α) (put : ConfSections → α → ConfSections) (set : Json ℚ → α → α)
    (hput : ∀ c, put c (get c) = c) (hfits : sectionFits test s = Json.isObject)
    (hset : ∀ json c, setSection s json c = some (put c (set json (get c)))) (c : ConfState) :
    updateSection (sectionFits test) data c s =
      some { c with toConfSections := put c.1 (posted data s.name set (get c.1)) } := by
  rw [updateSection, hfits, posted]
  cases (data.getObjectItem (ascii s.name)).filter Json.isObject with
  | none =>
    simp only [Option.elim_none, hput]
  | some json => simp only [Option.elim_some, hset, Option.map_some]

theorem updateSection_auth (c : ConfState) :
    updateSection (sectionFits test) data c .auth =
      (postedAuths data c.auths).map fun auths => { c with auths := auths } := by
  simp only [updateSection, postedAuths, sectionFits, ConfSection.name]
  cases (data.getObjectItem (ascii "auth")).filter Json.isArray with
  | none => rfl
  | some json => simp only [Option.elim_some, setSection, Option.map_map, Function.comp_def]

theorem updateSection_authHttp (c : ConfState) :
    updateSection (sectionFits test) data c .authHttp =
      (postedAuthHttp test data c.authHttp).map
        fun authHttp => { c with authHttp := authHttp } := by
  simp only [updateSection, postedAuthHttp, sectionFits, ConfSection.name]
  cases (data.getObjectItem (ascii "auth_http")).filter test with
  | none => rfl
  | some json => simp only [Option.elim_some, setSection, Option.map_map, Function.comp_def]

/-- Both dispatchers leave one result for each section, and differ in that of `auth_http`. -/
theorem foldlM_updateSection (c : ConfState) :
    ConfSection.all.foldlM (updateSection (sectionFits test) data) c =
      (postedAuths data c.auths).bind fun auths =>
        (postedAuthHttp test data c.authHttp).map fun authHttp =>
          { postedRest data c with auths := auths, authHttp := authHttp } := by
  have hbasic := updateSection_posted data test .basic ConfSections.basic
    (fun c x => { c with basic := x }) setBasicConfig (fun _ => rfl) rfl fun _ _ => rfl
  have htls := updateSection_posted data test .tls ConfSections.tls
    (fun c x => { c with tls := x }) setTlsConfig (fun _ => rfl) rfl fun _ _ => rfl
  have hwebsocket := updateSection_posted data test .websocket ConfSections.websocket
    (fun c x => { c with websocket := x }) setWebsocketConfig (fun _ => rfl) rfl fun _ _ => rfl
  have hserver := updateSection_posted data test .httpServer ConfSections.httpServer
    (fun c x => { c with httpServer := x }) setHttpConfig (fun _ => rfl) rfl fun _ _ => rfl
  have hsqlite := updateSection_posted data test .sqlite ConfSections.sqlite
    (fun c x => { c with sqlite := x }) setSqliteConfig (fun _ => rfl) rfl fun _ _ => rfl
  simp only [ConfSection.all, List.foldlM_cons, List.foldlM_nil, Option.bind_eq_bind, hbasic, htls,
    updateSection_auth, updateSection_authHttp, hwebsocket, hserver, hsqlite, Option.bind_some]
  cases postedAuths data c.auths with
  | none => rfl
  | some auths =>
    simp only [Option.map_some, Option.bind_some]
    cases postedAuthHttp test data c.authHttp with
    | none => rfl
    | some authHttp => rfl

theorem ofType_name (s : ConfSection) : ConfSection.ofType (ascii s.name) = some s := by
  cases s <;> decide +kernel

variable {body : Json ℚ} {c : ConfState}

theorem postConfig_eq (hbody : body.isObject = true)
    (hdata : body.getObjectItem (ascii "data") = some data) (hobject : data.isObject = true)
    (type : Option Bytes) (c : ConfState) :
    (postConfig (some body) type c).map Prod.snd = postData data type c := by
  simp only [postConfig, Option.filter_some_pos hbody, hdata, Option.filter_some_pos hobject,
    Option.map_map]
  exact Option.map_id'

/-- Without a top-level `enable` the request for a section only writes the section. -/
theorem postTyped_eq (henable : data.getObjectItem (ascii "enable") = none) (s : ConfSection)
    (c : ConfState) : postTyped data s c = updateSection (sectionFits Json.isObject) data c s := by
  have hvalue : data.getBoolValue (ascii "enable") = none := by
    rw [getBoolValue, henable]
  have hkeep : { c with authEnable := updated (data.getBoolValue (ascii "enable")) c.authEnable } =
      c := by
    rw [hvalue]
    rfl
  rw [postTyped, hkeep, ite_self]

theorem postSections_eq (hbody : body.isObject = true)
    (hdata : body.getObjectItem (ascii "data") = some data) (hobject : data.isObject = true)
    (henable : data.getObjectItem (ascii "enable") = none) :
    postSections body c =
      ConfSection.all.foldlM (updateSection (sectionFits Json.isObject) data) c := by
  refine congrArg (ConfSection.all.foldlM · c) (funext fun c => funext fun s => ?_)
  rw [postConfig_eq hbody hdata hobject, postData, ofType_name]
  exact postTyped_eq henable s c

/-- The two ways agree exactly if the credentials can be written and writing `auth_http` would
change nothing. -/
theorem sectionwise_iff_posted (hbody : body.isObject = true)
    (hdata : body.getObjectItem (ascii "data") = some data) (hobject : data.isObject = true)
    (henable : data.getObjectItem (ascii "enable") = none) :
    Sectionwise body c ↔ (postedAuths data c.auths).isSome ∧
      ∃ authHttp, postedAuthHttp Json.isArray data c.authHttp = some authHttp ∧
        postedAuthHttp Json.isObject data c.authHttp = some authHttp := by
  rw [Sectionwise, postConfig_eq hbody hdata hobject, postData, postUntyped,
    postSections_eq hbody hdata hobject henable, foldlM_updateSection, foldlM_updateSection]
  cases postedAuths data c.auths with
  | none => simp
  | some auths =>
    simp only [Option.bind_some, Option.map_eq_some_iff, Option.isSome_some, true_and]
    constructor
    · rintro ⟨c', ⟨untyped, huntyped, rfl⟩, typed, htyped, heq⟩
      obtain rfl : typed = untyped := congrArg (fun c : ConfState => c.authHttp) heq
      exact ⟨typed, huntyped, htyped⟩
    · rintro ⟨authHttp, huntyped, htyped⟩
      exact ⟨_, ⟨authHttp, huntyped, rfl⟩, authHttp, htyped, rfl⟩

end Dispatch

section Shapes

variable {data : Json ℚ} {auths : ConfAuth}

/-- The vectors of the table hold the strings that its count announces. -/
structure ConfAuth.Readable (auth : ConfAuth) : Prop where
  usernames : auth.count ≤ auth.usernames.length
  passwords : auth.count ≤ auth.passwords.length

theorem readVector_isSome_iff (v : List Bytes) (count : ℕ) :
    (readVector v count).isSome ↔ count ≤ v.length := by
  by_cases h : count ≤ v.length
  · rw [readVector_of_le h]
    exact iff_of_true rfl h
  · rw [readVector_of_lt (Nat.lt_of_not_le h)]
    exact iff_of_false Bool.false_ne_true h

theorem read_isSome_iff (auth : ConfAuth) : auth.read.isSome ↔ auth.Readable := by
  have husers := readVector_isSome_iff auth.usernames auth.count
  have hpasswords := readVector_isSome_iff auth.passwords auth.count
  have hand : auth.read.isSome ↔ (readVector auth.usernames auth.count).isSome ∧
      (readVector auth.passwords auth.count).isSome := by
    rw [ConfAuth.read]
    cases readVector auth.usernames auth.count with
    | none => simp
    | some users => cases readVector auth.passwords auth.count <;> simp
  rw [hand, husers, hpasswords]
  exact ⟨fun h => ⟨h.1, h.2⟩, fun h => ⟨h.usernames, h.passwords⟩⟩

/-- Credentials as they are emitted can be written only if there are none. -/
theorem postedAuths_isSome_iff (hshape : GetShaped data) :
    (postedAuths data auths).isSome ↔ data.getObjectItem (ascii "auth") = none ∨
      data.getObjectItem (ascii "auth") = some (.array []) ∧ auths.Readable := by
  rw [postedAuths]
  cases hitem : data.getObjectItem (ascii "auth") with
  | none => exact iff_of_true rfl (Or.inl rfl)
  | some json =>
    obtain ⟨c, hget⟩ := hshape .auth (Or.inl rfl) json hitem
    obtain ⟨a, -, rfl⟩ := Option.map_eq_some_iff.mp hget
    rw [Option.filter_some_pos rfl, Option.elim_some, or_iff_right (Option.some_ne_none _)]
    cases hpairs : a.usernames.zip a.passwords with
    | nil =>
      rw [← read_isSome_iff, List.map_nil, and_iff_right rfl]
      have hnew : (newAuth (.array [] : Json ℚ)).read = some ⟨0, [], []⟩ := rfl
      cases hread : auths.read with
      | none => simp [setAuthConfig, reloadAuthConfig, hread]
      | some _ => simp [setAuthConfig, reloadAuthConfig, hread, hnew]
    | cons pair pairs =>
      rw [setAuthConfig_none]
      · refine iff_of_false Bool.false_ne_true fun h => ?_
        cases h.1
      · rw [filterMap_login]
        exact Nat.succ_pos _

theorem postedAuthHttp_iff (hshape : GetShaped data) (b : ConfAuthHttp) :
    (∃ authHttp, postedAuthHttp Json.isArray data b = some authHttp ∧
        postedAuthHttp Json.isObject data b = some authHttp) ↔
      data.getObjectItem (ascii "auth_http") = none ∨
        ∃ a, data.getObjectItem (ascii "auth_http") = some (getAuthHttpConfig a) ∧
          AuthHttpIdle a b := by
  rw [postedAuthHttp, postedAuthHttp]
  cases hitem : data.getObjectItem (ascii "auth_http") with
  | none => exact iff_of_true ⟨b, rfl, rfl⟩ (Or.inl rfl)
  | some json =>
    obtain ⟨c, hget⟩ := hshape .authHttp (Or.inr rfl) json hitem
    obtain rfl := Option.some.inj hget
    rw [Option.filter_some_neg rfl, Option.filter_some_pos rfl,
      Option.elim_none, Option.elim_some, or_iff_right (Option.some_ne_none _)]
    constructor
    · rintro ⟨x, hx, hset⟩
      cases hx
      exact ⟨c.authHttp, rfl, (setAuthHttpConfig_eq_self_iff _ _).mp hset⟩
    · rintro ⟨a, ha, hidle⟩
      rw [Option.some.inj ha]
      exact ⟨b, rfl, (setAuthHttpConfig_eq_self_iff a b).mpr hidle⟩

end Shapes

/-- A request without a type leaves what the requests for its sections leave exactly if the section
`auth_http`, where it is given, would change nothing and the credentials can be written. -/
theorem postConfig_sectionwise_iff (body data : Json ℚ) (c : ConfState)
    (hbody : body.isObject = true) (hdata : body.getObjectItem (ascii "data") = some data)
    (hobject : data.isObject = true) (henable : data.getObjectItem (ascii "enable") = none)
    (hshape : GetShaped data) :
    Sectionwise body c ↔
      (data.getObjectItem (ascii "auth") = none ∨
        data.getObjectItem (ascii "auth") = some (.array []) ∧ c.auths.Readable) ∧
      (data.getObjectItem (ascii "auth_http") = none ∨
        ∃ a, data.getObjectItem (ascii "auth_http") = some (getAuthHttpConfig a) ∧
          AuthHttpIdle a c.authHttp) := by
  rw [sectionwise_iff_posted hbody hdata hobject henable, postedAuths_isSome_iff hshape,
    postedAuthHttp_iff hshape]

/-- The members of what GET /configuration returns. -/
def getMembers (sections : List ConfSection) (c : ConfSections) : List (String × Json ℚ) :=
  sections.map (fun s => (s.name, (getSection s c).getD .null))

def sectionBody (s : ConfSection) (json : Json ℚ) : Json ℚ :=
  record [("data", record [(s.name, json)])]

def sampleState (enable : Bool) : ConfState where
  toConfSections := { ConfSections.sample [] with
    authHttp := { (ConfSections.sample []).authHttp with enable := enable } }
  authEnable := true

theorem name_injective {s s' : ConfSection}
    (h : strcaseEq (ascii s.name) (ascii s'.name) = true) : s = s' := by
  cases s <;> cases s' <;> first | rfl | exact absurd h (by decide)

theorem getShaped_get {sections : List ConfSection} {c : ConfSections}
    (hget : ∀ s ∈ sections, (getSection s c).isSome) :
    GetShaped (record (getMembers sections c)) := by
  intro s _ json hitem
  obtain ⟨member, hfind, rfl⟩ := Option.map_eq_some_iff.mp hitem
  obtain ⟨field, hfield, rfl⟩ := List.mem_map.mp (List.mem_of_find?_eq_some hfind)
  obtain ⟨s', hs', rfl⟩ := List.mem_map.mp hfield
  have hname : strcaseEq (ascii s'.name) (ascii s.name) = true := by
    simpa using List.find?_some hfind
  obtain rfl := name_injective hname
  obtain ⟨json, hjson⟩ := Option.isSome_iff_exists.mp (hget s' hs')
  refine ⟨c, ?_⟩
  rw [hjson]
  rfl

/-- A request that gives all sections as they stand. -/
theorem postConfig_sectionwise_same :
    Sectionwise
      (record [("data", record (getMembers ConfSection.all (sampleState true).toConfSections))])
      (sampleState true) := by
  have hidle : AuthHttpIdle (sampleState true).authHttp (sampleState true).authHttp :=
    have hreq : ReqIdle ConfAuthHttpReq.sample ConfAuthHttpReq.sample :=
      ⟨Or.inr rfl, Or.inr rfl, List.prefix_rfl, rfl⟩
    ⟨rfl, rfl, rfl, rfl, rfl, hreq, hreq, hreq⟩
  apply (postConfig_sectionwise_iff _ _ (sampleState true) rfl rfl rfl rfl (getShaped_get ?_)).mpr
  · exact ⟨Or.inr ⟨rfl, (read_isSome_iff _).mp rfl⟩, Or.inr ⟨_, rfl, hidle⟩⟩
  · intro s _
    cases s <;> rfl

/-- A request that switches `auth_http` off leaves it on, while the request for the section switches
it off. -/
theorem postConfig_passes_over_authHttp :
    GetShaped (record [("auth_http", getAuthHttpConfig (sampleState false).authHttp)]) ∧
    (postConfig (some (sectionBody .authHttp (getAuthHttpConfig (sampleState false).authHttp))) none
      (sampleState true)).map (fun r => r.2.authHttp.enable) = some true ∧
    (postSections (sectionBody .authHttp (getAuthHttpConfig (sampleState false).authHttp))
      (sampleState true)).map (fun c => c.authHttp.enable) = some false ∧
    ¬ Sectionwise (sectionBody .authHttp (getAuthHttpConfig (sampleState false).authHttp))
      (sampleState true) := by
  have hwhole : (postConfig (some (sectionBody .authHttp
      (getAuthHttpConfig (sampleState false).authHttp))) none (sampleState true)).map
      (fun r => r.2.authHttp.enable) = some true := by
    decide +kernel
  have hsection : (postSections (sectionBody .authHttp
      (getAuthHttpConfig (sampleState false).authHttp)) (sampleState true)).map
      (fun c => c.authHttp.enable) = some false := by
    decide +kernel
  refine ⟨@getShaped_get [.authHttp] (sampleState false).toConfSections
    (List.forall_mem_singleton.mpr rfl), hwhole,
    hsection, ?_⟩
  rintro ⟨c', hc, hc'⟩
  obtain ⟨r, hr, rfl⟩ := Option.map_eq_some_iff.mp hc
  rw [hr] at hwhole
  rw [hc'] at hsection
  exact absurd (hwhole.symm.trans hsection) (by decide)

end NanoMQ
