import NanoMQ.ConfReadBack

/-!
# POST /configuration

`post_config` writes the sections that the `data` of a request holds. With a type it looks for one
section only, and without a type for all of them, in two dispatchers of their own. A section is
passed to its setter if it has the expected type of JSON. The handler has no result where a setter
reads or writes past the end of a vector.
-/

namespace NanoMQ

open ByteBuffer

/-- The sections, and the `enable` of `auths`, which only `post_config` writes. -/
structure ConfState extends ConfSections where
  authEnable : Bool

namespace ConfSection

def name : ConfSection → String
  | basic => "basic"
  | tls => "tls"
  | auth => "auth"
  | authHttp => "auth_http"
  | websocket => "websocket"
  | httpServer => "http_server"
  | sqlite => "sqlite"

def all : List ConfSection := [basic, tls, auth, authHttp, websocket, httpServer, sqlite]

def ofType (type : Bytes) : Option ConfSection := all.find? fun s => type == ascii s.name

end ConfSection

def Json.isArray : Json ℚ → Bool
  | .array _ => true
  | _ => false

/-- The test that a section has to pass. The dispatchers differ in that of `auth_http`. -/
def sectionFits (authHttp : Json ℚ → Bool) : ConfSection → Json ℚ → Bool
  | .auth => Json.isArray
  | .authHttp => authHttp
  | _ => Json.isObject

def updateSection (fits : ConfSection → Json ℚ → Bool) (data : Json ℚ) (c : ConfState)
    (s : ConfSection) : Option ConfState :=
  match (data.getObjectItem (ascii s.name)).filter (fits s) with
  | some json =>
    (setSection s json c.toConfSections).map fun sections => { c with toConfSections := sections }
  | none => some c

/-- The dispatcher for a request with a type. An array of credentials comes with the `enable` of
`data`. -/
def postTyped (data : Json ℚ) (s : ConfSection) (c : ConfState) : Option ConfState :=
  let isAuth := s = .auth ∧ (data.getObjectItem (ascii "auth")).any Json.isArray
  updateSection (sectionFits Json.isObject) data
    (if isAuth then
      { c with authEnable := updated (data.getBoolValue (ascii "enable")) c.authEnable }
    else c) s

def postUntyped (data : Json ℚ) (c : ConfState) : Option ConfState :=
  ConfSection.all.foldlM (updateSection (sectionFits Json.isArray) data) c

def postData (data : Json ℚ) (type : Option Bytes) (c : ConfState) : Option ConfState :=
  match type with
  | none => postUntyped data c
  | some type =>
    match ConfSection.ofType type with
    | some s => postTyped data s c
    | none => some c

def postConfig (body : Option (Json ℚ)) (type : Option Bytes) (c : ConfState) :
    Option (HttpAnswer × ConfState) :=
  match body.filter Json.isObject with
  | none => some (errorResponse 400 109, c)
  | some req =>
    (match (req.getObjectItem (ascii "data")).filter Json.isObject with
    | some data => postData data type c
    | none => some c).map fun c' => (⟨200, Json.record [("code", .number 0)]⟩, c')

def postSections (body : Json ℚ) (c : ConfState) : Option ConfState :=
  ConfSection.all.foldlM
    (fun c s => (postConfig (some body) (some (ascii s.name)) c).map Prod.snd) c

/-- The request without a type and the seven requests leave the same configuration. -/
def Sectionwise (body : Json ℚ) (c : ConfState) : Prop :=
  ∃ c', (postConfig (some body) none c).map Prod.snd = some c' ∧ postSections body c = some c'

/-- The sections `auth` and `auth_http`, where they are given, are ones that GET /configuration
returns for some configuration. The other sections may be anything. -/
def GetShaped (data : Json ℚ) : Prop :=
  ∀ s, s = .auth ∨ s = .authHttp → ∀ json, data.getObjectItem (ascii s.name) = some json →
    ∃ c, getSection s c = some json

end NanoMQ
