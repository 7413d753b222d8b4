import LetsChat.Lib.Cells
import LetsChat.Messages

/-! The HTTP interface of the gateway: registration and login, with JSON bodies that arrive in
pieces. -/

namespace LetsChat.Gateway
open Lib Prog Machine

/-- Booleans, arrays and numbers that are no integers are `other`: the handlers look into none
of them. -/
inductive Json
  | null
  | string (s : Text)
  | number (n : Int)
  | object (members : List (Text × Json))
  | other

/-- `json::parse`, which throws on what is no JSON, and `dump`. -/
structure Nlohmann where
  parse : Bytes → Option Json
  dump : Json → Bytes

namespace Json

/-- `operator[]`, which throws on anything but null and objects. A member that is missing is
added as null. -/
def index (j : Json) (key : Text) : Option Json :=
  match j with
  | null => some null
  | object members => some ((members.lookup key).getD null)
  | _ => none

/-- `get<std::string>`, which throws on anything but a string. -/
def getString : Json → Option Text
  | string s => some s
  | _ => none

def stringAt (j : Json) (key : Text) : Option Text := (j.index key).bind getString

def insertMember (key : Text) (v : Json) : List (Text × Json) → List (Text × Json)
  | [] => [(key, v)]
  | (k, w) :: rest =>
    if key = k then (k, v) :: rest
    else if key < k then (key, v) :: (k, w) :: rest
    else (k, w) :: insertMember key v rest

def ofMembers (members : List (Text × Json)) : Json :=
  object (members.foldl (fun l m => insertMember m.1 m.2 l) [])

end Json

inductive Api
  | register
  | login
  deriving DecidableEq

/-- The RPCs of the handlers. One that is not OK has no result. -/
inductive HttpOp
  | registerUser (rpc_req : RegisterReq)
  | httpLogin (rpc_req : HttpLoginReq)

@[reducible] def HttpOp.Ret : HttpOp → Type
  | registerUser _ => Option RegisterRes
  | httpLogin _ => Option HttpLoginRes

def registerReq (j : Json) : Option RegisterReq := do
  let email ← j.stringAt "email".toList
  let nickname ← j.stringAt "nickname".toList
  let password ← j.stringAt "password".toList
  return { email, nickname, password }

def httpLoginReq (j : Json) : Option HttpLoginReq := do
  let email ← j.stringAt "email".toList
  let password ← j.stringAt "password".toList
  return { email, password }

def respJson (code : Int) (msg : Text) (more : List (Text × Json)) : Json :=
  .ofMembers ([("code".toList, .number code), ("msg".toList, .string msg)] ++ more)

def invalidJson : Json := respJson 400 "Invalid JSON".toList []

/-- Without an OK status the message is that of a reply nobody has filled in. -/
def refused (err_msg : Option Text) : Json := respJson 500 (err_msg.getD []) []

def registered (uid : Int) : Json := respJson 200 "注册成功".toList [("uid".toList, .number uid)]

def loggedIn (email : Text) (rpc_res : HttpLoginRes) : Json :=
  respJson 200 "登录成功".toList
    [("token".toList, .string rpc_res.token),
      ("userInfo".toList, .ofMembers
        [("id".toList, .number rpc_res.uid), ("nickname".toList, .string rpc_res.nickname),
          ("email".toList, .string email), ("avatar".toList, .string rpc_res.avatar)])]

def answerRegister : Option RegisterRes → Json
  | some rpc_res => if rpc_res.err_code = 0 then registered rpc_res.uid else refused rpc_res.err_msg
  | none => refused none

def answerLogin (email : Text) : Option HttpLoginRes → Json
  | some rpc_res => if rpc_res.err_code = 0 then loggedIn email rpc_res else refused rpc_res.err_msg
  | none => refused none

section Handlers
variable (json : Nlohmann)

/-- What is done with a whole body. An exception on the way to the RPC ends in the `catch`. -/
def onBody (api : Api) (buffer : Bytes) : Prog HttpOp.Ret Json :=
  match api with
  | .register =>
    match (json.parse buffer).bind registerReq with
    | some rpc_req => answerRegister <$> perform (HttpOp.registerUser rpc_req)
    | none => return invalidJson
  | .login =>
    match (json.parse buffer).bind httpLoginReq with
    -- `j["email"]`, which goes into the reply, was read as this string
    | some rpc_req => answerLogin rpc_req.email <$> perform (HttpOp.httpLogin rpc_req)
    | none => return invalidJson

structure HttpEnv where
  registerUser : RegisterReq → Option RegisterRes
  httpLogin : HttpLoginReq → Option HttpLoginRes

def execHttp (e : HttpEnv) : (o : HttpOp) → Unit → o.Ret × Unit
  | .registerUser rpc_req, s => (e.registerUser rpc_req, s)
  | .httpLogin rpc_req, s => (e.httpLogin rpc_req, s)

inductive Exchanging
  | idle
  | receiving (api : Api) (buffer : Bytes)

/-- `onData` gets its pieces until one is the last or the request is aborted; the response
object may then serve the next request. -/
inductive HttpInput (τ : Type)
  | post (res : τ) (api : Api)
  | onData (res : τ) (chunk : Bytes) (isLast : Bool) (e : HttpEnv)
  | onAborted (res : τ)

def HttpInput.res {τ : Type} : HttpInput τ → τ
  | post res _ | onData res _ _ _ | onAborted res => res

inductive HttpOutput
  | none
  | ended (body : Option Bytes) (rpcs : List (Event HttpOp.Ret))

def responding (τ : Type) : Machine Exchanging (HttpInput τ) HttpOutput where
  step
    | .idle, .post _ api => some (.none, .receiving api [])
    | .receiving api buffer, .onData _ chunk isLast e =>
      let buffer := buffer ++ chunk
      if isLast then
        some (.ended (((onBody json api buffer).run (execHttp e) ()).1.map json.dump)
          ((onBody json api buffer).events (execHttp e) ()), .idle)
      else some (.none, .receiving api buffer)
    | .receiving _ _, .onAborted _ => some (.none, .idle)
    | _, _ => none

def http (τ : Type) [DecidableEq τ] : Machine (τ → Exchanging) (HttpInput τ) HttpOutput :=
  cells (responding json τ) HttpInput.res

def requestOf (api : Api) (buffer : Bytes) : Option HttpOp :=
  match api with
  | .register => ((json.parse buffer).bind registerReq).map .registerUser
  | .login => ((json.parse buffer).bind httpLoginReq).map .httpLogin

def replyTo (e : HttpEnv) (api : Api) (buffer : Bytes) : Json :=
  match requestOf json api buffer with
  | some (.registerUser rpc_req) => answerRegister (e.registerUser rpc_req)
  | some (.httpLogin rpc_req) => answerLogin rpc_req.email (e.httpLogin rpc_req)
  | none => invalidJson

theorem run_onBody (e : HttpEnv) (api : Api) (buffer : Bytes) :
    (onBody json api buffer).run (execHttp e) () = (some (replyTo json e api buffer), ()) := by
  cases api with
  | register =>
    unfold onBody replyTo requestOf
    cases (json.parse buffer).bind registerReq <;> rfl
  | login =>
    unfold onBody replyTo requestOf
    cases (json.parse buffer).bind httpLoginReq <;> rfl

theorem rpcs_onBody (e : HttpEnv) (api : Api) (buffer : Bytes) :
    ((onBody json api buffer).events (execHttp e) ()).map (·.1) =
      (requestOf json api buffer).toList := by
  cases api with
  | register =>
    unfold onBody requestOf
    cases (json.parse buffer).bind registerReq <;> rfl
  | login =>
    unfold onBody requestOf
    cases (json.parse buffer).bind httpLoginReq <;> rfl

variable {τ : Type}

def pieces (res : τ) (chunks : List (Bytes × HttpEnv)) : List (HttpInput τ) :=
  chunks.map fun piece => .onData res piece.1 false piece.2

def joined (chunks : List (Bytes × HttpEnv)) : Bytes := (chunks.map (·.1)).flatten

def Arrived (res : τ) (inputs : List (HttpInput τ)) (api : Api) (buffer : Bytes) : Prop :=
  ∃ before chunks, inputs = before ++ .post res api :: pieces res chunks ∧ buffer = joined chunks

theorem Arrived.more {res : τ} {inputs : List (HttpInput τ)} {api : Api} {buffer : Bytes}
    (h : Arrived res inputs api buffer) (chunk : Bytes) (e : HttpEnv) :
    Arrived res (inputs ++ [.onData res chunk false e]) api (buffer ++ chunk) := by
  obtain ⟨before, chunks, rfl, rfl⟩ := h
  refine ⟨before, chunks ++ [(chunk, e)], ?_, ?_⟩
  · rw [pieces, pieces, List.map_append, List.append_assoc, List.cons_append]
    rfl
  · rw [joined, joined, List.map_append, List.flatten_append, List.map_singleton,
      List.flatten_singleton]

theorem arrived_of_run {res : τ} {h : History (HttpInput τ) HttpOutput}
    (hown : ∀ io ∈ h, io.1.res = res) {s : Exchanging} (hrun : (responding json τ).Run h .idle s)
    {api : Api} {buffer : Bytes} (hs : s = .receiving api buffer) :
    Arrived res (h.map (·.1)) api buffer := by
  induction h using List.reverseRecOn generalizing s api buffer with
  | nil =>
    obtain rfl : s = .idle := hrun
    cases hs
  | append_singleton h io ih =>
    obtain ⟨u, hbefore, hstep⟩ := path_snoc.mp hrun
    have hres : io.1.res = res := hown io (List.mem_append_right _ (List.mem_singleton_self io))
    have harrived : ∀ api buffer, u = .receiving api buffer →
        Arrived res (h.map (·.1)) api buffer := fun api buffer =>
      ih (fun io hio => hown io (List.mem_append_left _ hio)) hbefore
    obtain ⟨i, o⟩ := io
    subst hs
    cases u with
    | idle =>
      cases i with
      | post r a =>
        obtain rfl : r = res := hres
        cases hstep
        exact ⟨h.map (·.1), [], by rw [List.map_append]; rfl, rfl⟩
      | _ => cases hstep
    | receiving a b =>
      cases i with
      | onData r chunk isLast e =>
        obtain rfl : r = res := hres
        cases isLast with
        | true => cases hstep
        | false =>
          cases hstep
          rw [List.map_append]
          exact (harrived _ _ rfl).more chunk e
      | _ => cases hstep

/-- A response answers the body that has arrived for its own request since that came in, and
the last piece of a body gets one. -/
def AnswersWhole (own : History (HttpInput τ) HttpOutput) (i : HttpInput τ) (o : HttpOutput) :
    Prop :=
  (∀ body rpcs, o = .ended body rpcs → ∃ res chunk e before api chunks,
    i = .onData res chunk true e ∧
    own.map (·.1) = before ++ .post res api :: pieces res chunks ∧
    body = some (json.dump (replyTo json e api (joined chunks ++ chunk))) ∧
    rpcs.map (·.1) = (requestOf json api (joined chunks ++ chunk)).toList) ∧
  ∀ res chunk e, i = .onData res chunk true e → ∃ body rpcs, o = .ended body rpcs

/-- However the pieces of many requests are mixed, each request gets its response when its last
piece is there, and at no other time. It is that to the joined body, for which one RPC at most
goes out. -/
theorem http_answers_whole [DecidableEq τ] (is : List (HttpInput τ)) :
    (http json τ).EveryStep (fun h _ i o _ => AnswersWhole json (h.own HttpInput.res i.res) i o) []
      (fun _ => .idle) is := by
  refine everyStep_cells ?_ is
  rintro res h u i o u' hown hrun hres hstep
  constructor
  · rintro body rpcs rfl
    cases u with
    | idle => cases i <;> cases hstep
    | receiving api buffer =>
      cases i with
      | onData r chunk isLast e =>
        obtain rfl : r = res := hres
        cases isLast with
        | false => cases hstep
        | true =>
          obtain ⟨before, chunks, hinputs, rfl⟩ := arrived_of_run json hown hrun rfl
          cases hstep
          refine ⟨r, chunk, e, before, api, chunks, rfl, hinputs, ?_, rpcs_onBody json e api _⟩
          rw [run_onBody]
          rfl
      | _ => cases hstep
  · rintro r chunk e rfl
    cases u with
    | idle => cases hstep
    | receiving api buffer =>
      cases hstep
      exact ⟨_, _, rfl⟩

end Handlers
end LetsChat.Gateway
