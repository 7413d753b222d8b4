import LetsChat.Lib.SerialTable
import LetsChat.Lib.SqlQuotes
import LetsChat.Messages

/-! The tables, and the SQL statements that the logic server sends: the text
that each function concatenates and the effect that it intends. -/

namespace LetsChat
open Lib

structure UserRow where
  id : Int
  username : Text
  password : Text
  email : Text
  deriving DecidableEq

structure ChatMsgRow where
  id : Int
  msg_id : Text
  from_uid : Int
  to_uid : Int
  content : Text
  create_time : Int
  deriving DecidableEq

structure GroupMsgRow where
  id : Int
  msg_id : Text
  group_id : Int
  from_uid : Int
  content : Text
  create_time : Int
  deriving DecidableEq

structure FriendRow where
  uid : Int
  friend_uid : Int
  create_time : Int
  deriving DecidableEq

structure FriendRequestRow where
  id : Int
  from_uid : Int
  to_uid : Int
  reason : Text
  create_time : Int
  status : Int
  deriving DecidableEq

/-- Rows with a `BIGSERIAL` key are listed in key order; `t_friend` has no such key. -/
structure Tables where
  t_user : SerialTable UserRow UserRow.id
  t_chat_msg : SerialTable ChatMsgRow ChatMsgRow.id
  t_group_msg : SerialTable GroupMsgRow GroupMsgRow.id
  t_friend : List FriendRow
  t_friend_request : SerialTable FriendRequestRow FriendRequestRow.id

def Tables.empty : Tables := ⟨.empty, .empty, .empty, [], .empty⟩

inductive ExecStatusType
  | PGRES_COMMAND_OK
  | PGRES_TUPLES_OK
  | PGRES_FATAL_ERROR
  deriving DecidableEq

/-- `cmdTuples` is the number of rows that a command changed. -/
structure PGresult where
  status : ExecStatusType
  rows : List (List Text) := []
  cmdTuples : Nat := 0
  deriving DecidableEq

namespace PGresult

def fatal : PGresult := { status := .PGRES_FATAL_ERROR }
def command (n : Nat) : PGresult := { status := .PGRES_COMMAND_OK, cmdTuples := n }
def tuples (rows : List (List Text)) : PGresult := { status := .PGRES_TUPLES_OK, rows }

def ntuples (res : PGresult) : Nat := res.rows.length
def getvalue (res : PGresult) (i j : Nat) : Text := ((res.rows[i]?).bind (·[j]?)).getD []

@[simp] theorem status_fatal : fatal.status = .PGRES_FATAL_ERROR := rfl
@[simp] theorem status_command (n : Nat) : (command n).status = .PGRES_COMMAND_OK := rfl
@[simp] theorem status_tuples (rows : List (List Text)) :
    (tuples rows).status = .PGRES_TUPLES_OK := rfl
@[simp] theorem rows_tuples (rows : List (List Text)) : (tuples rows).rows = rows := rfl
@[simp] theorem ntuples_tuples (rows : List (List Text)) :
    (tuples rows).ntuples = rows.length := rfl

end PGresult

/-- `std::stoll` of a cell: it throws when the cell starts with no number. A cell of an
integer column is in range. -/
def stoll (cell : Text) : Option Int := Decimal.read cell

@[simp] theorem stoll_to_string (n : Int) : stoll (to_string n) = some n := Decimal.read_print n

/-- What `VARCHAR(n)` stores: a longer value is refused, unless only blanks are cut off. -/
def varchar (n : Nat) (s : Text) : Option Text :=
  if s.length ≤ n then some s
  else if (s.drop n).all (· == ' ') then some (s.take n)
  else none

/-- One constructor for each statement in the source, with the values put into it. -/
inductive Query
  | selectUserPassword (uid : Int)
  | insertChatMsg (msg_id : Text) (from_uid to_uid : Int) (content : Text) (now : Int)
  | selectOfflineMsgs (uid last_msg_id : Int)
  | insertUser (username password email : Text)
  | selectUserByEmail (email : Text)
  | insertFriendRequest (from_uid to_uid : Int) (reason : Text) (now : Int)
  | selectFriendRequests (uid : Int)
  | selectPendingRequest (req_id : Int)
  | insertFriend (uid friend_uid now : Int)
  | acceptRequest (req_id : Int)
  | rejectRequest (req_id : Int)
  | selectFriend (uid1 uid2 : Int)
  | selectFriends (uid : Int)
  | insertGroupMsg (msg_id : Text) (group_id from_uid : Int) (content : Text) (now : Int)
  | selectGroupMsgs (group_id last_msg_id : Int)
  deriving DecidableEq

namespace Query

def text : Query → Text
  | selectUserPassword uid => "SELECT password FROM t_user WHERE id=".toList ++ to_string uid
  | insertChatMsg msg_id from_uid to_uid content now =>
    "INSERT INTO t_chat_msg (msg_id, from_uid, to_uid, content, create_time) VALUES ('".toList
      ++ msg_id ++ "', ".toList ++ to_string from_uid ++ ", ".toList ++ to_string to_uid
      ++ ", '".toList ++ content ++ "', ".toList ++ to_string now ++ ")".toList
  | selectOfflineMsgs uid last_msg_id =>
    "SELECT msg_id, from_uid, to_uid, content, create_time FROM t_chat_msg WHERE to_uid=".toList
      ++ to_string uid ++ " AND id > ".toList ++ to_string last_msg_id
      ++ " ORDER BY id ASC LIMIT 100".toList
  | insertUser username password email =>
    "INSERT INTO t_user (username, password, email) VALUES ('".toList ++ username
      ++ "', '".toList ++ password ++ "', '".toList ++ email ++ "') RETURNING id".toList
  | selectUserByEmail email =>
    "SELECT id, username, password FROM t_user WHERE email='".toList ++ email ++ "'".toList
  | insertFriendRequest from_uid to_uid reason now =>
    "INSERT INTO t_friend_request (from_uid, to_uid, reason, create_time) VALUES (".toList
      ++ to_string from_uid ++ ", ".toList ++ to_string to_uid ++ ", '".toList ++ reason
      ++ "', ".toList ++ to_string now ++ ") RETURNING id".toList
  | selectFriendRequests uid =>
    "SELECT id, from_uid, to_uid, reason, create_time, status FROM t_friend_request WHERE to_uid=".toList
      ++ to_string uid ++ " AND status=0 ORDER BY id ASC".toList
  | selectPendingRequest req_id =>
    "SELECT from_uid, to_uid FROM t_friend_request WHERE id=".toList ++ to_string req_id
      ++ " AND status=0".toList
  | insertFriend uid friend_uid now =>
    "INSERT INTO t_friend (uid, friend_uid, create_time) VALUES (".toList ++ to_string uid
      ++ ", ".toList ++ to_string friend_uid ++ ", ".toList ++ to_string now
      ++ ") ON CONFLICT DO NOTHING".toList
  | acceptRequest req_id =>
    "UPDATE t_friend_request SET status=1 WHERE id=".toList ++ to_string req_id
  | rejectRequest req_id =>
    "UPDATE t_friend_request SET status=2 WHERE id=".toList ++ to_string req_id
  | selectFriend uid1 uid2 =>
    "SELECT 1 FROM t_friend WHERE uid=".toList ++ to_string uid1 ++ " AND friend_uid=".toList
      ++ to_string uid2 ++ " LIMIT 1".toList
  | selectFriends uid => "SELECT friend_uid FROM t_friend WHERE uid=".toList ++ to_string uid
  | insertGroupMsg msg_id group_id from_uid content now =>
    "INSERT INTO t_group_msg (msg_id, group_id, from_uid, content, create_time) VALUES ('".toList
      ++ msg_id ++ "', ".toList ++ to_string group_id ++ ", ".toList ++ to_string from_uid
      ++ ", '".toList ++ content ++ "', ".toList ++ to_string now ++ ")".toList
  | selectGroupMsgs group_id last_msg_id =>
    "SELECT msg_id, group_id, from_uid, content, create_time FROM t_group_msg WHERE group_id=".toList
      ++ to_string group_id ++ " AND id > ".toList ++ to_string last_msg_id
      ++ " ORDER BY id ASC LIMIT 100".toList

def chatMsgCells (r : ChatMsgRow) : List Text :=
  [r.msg_id, to_string r.from_uid, to_string r.to_uid, r.content, to_string r.create_time]

def groupMsgCells (r : GroupMsgRow) : List Text :=
  [r.msg_id, to_string r.group_id, to_string r.from_uid, r.content, to_string r.create_time]

def friendRequestCells (r : FriendRequestRow) : List Text :=
  [to_string r.id, to_string r.from_uid, to_string r.to_uid, r.reason, to_string r.create_time,
    to_string r.status]

def setStatus (status : Int) (r : FriendRequestRow) : FriendRequestRow := { r with status }

def updateStatus (req_id status : Int) (t : Tables) : PGresult × Tables :=
  (.command (t.t_friend_request.rows.filter (·.id = req_id)).length,
    { t with
      t_friend_request :=
        t.t_friend_request.update (·.id = req_id) (setStatus status) fun _ => rfl })

/-- The intended effect. `t_user` has the unique and length constraints of the schema,
`t_friend` the unique key that `ON CONFLICT` presupposes. -/
def exec : Query → Tables → PGresult × Tables
  | selectUserPassword uid, t =>
    (.tuples ((t.t_user.rows.filter (·.id = uid)).map fun r => [r.password]), t)
  | insertChatMsg msg_id from_uid to_uid content now, t =>
    (.command 1,
      { t with
        t_chat_msg := t.t_chat_msg.insert
          (fun id => ⟨id, msg_id, from_uid, to_uid, content, now⟩) fun _ => rfl })
  | selectOfflineMsgs uid last_msg_id, t =>
    (.tuples (((t.t_chat_msg.rows.filter fun r => r.to_uid = uid ∧ last_msg_id < r.id).take
        100).map chatMsgCells), t)
  | insertUser username password email, t =>
    match varchar 50 username, varchar 50 password with
    | some username, some password =>
      if t.t_user.rows.any (·.username = username) then (.fatal, t)
      else
        (.tuples [[to_string t.t_user.next]],
          { t with
            t_user := t.t_user.insert
              (fun id => ⟨id, username, password, email⟩) fun _ => rfl })
    | _, _ => (.fatal, t)
  | selectUserByEmail email, t =>
    (.tuples ((t.t_user.rows.filter (·.email = email)).map
      fun r => [to_string r.id, r.username, r.password]), t)
  | insertFriendRequest from_uid to_uid reason now, t =>
    (.tuples [[to_string t.t_friend_request.next]],
      { t with
        t_friend_request := t.t_friend_request.insert
          (fun id => ⟨id, from_uid, to_uid, reason, now, 0⟩) fun _ => rfl })
  | selectFriendRequests uid, t =>
    (.tuples ((t.t_friend_request.rows.filter fun r => r.to_uid = uid ∧ r.status = 0).map
      friendRequestCells), t)
  | selectPendingRequest req_id, t =>
    (.tuples ((t.t_friend_request.rows.filter fun r => r.id = req_id ∧ r.status = 0).map
      fun r => [to_string r.from_uid, to_string r.to_uid]), t)
  | insertFriend uid friend_uid now, t =>
    if t.t_friend.any fun r => r.uid = uid ∧ r.friend_uid = friend_uid then (.command 0, t)
    else (.command 1, { t with t_friend := t.t_friend ++ [⟨uid, friend_uid, now⟩] })
  | acceptRequest req_id, t => updateStatus req_id 1 t
  | rejectRequest req_id, t => updateStatus req_id 2 t
  | selectFriend uid1 uid2, t =>
    (.tuples (((t.t_friend.filter fun r => r.uid = uid1 ∧ r.friend_uid = uid2).take 1).map
      fun _ => ["1".toList]), t)
  | selectFriends uid, t =>
    (.tuples ((t.t_friend.filter (·.uid = uid)).map fun r => [to_string r.friend_uid]), t)
  | insertGroupMsg msg_id group_id from_uid content now, t =>
    (.command 1,
      { t with
        t_group_msg := t.t_group_msg.insert
          (fun id => ⟨id, msg_id, group_id, from_uid, content, now⟩) fun _ => rfl })
  | selectGroupMsgs group_id last_msg_id, t =>
    (.tuples (((t.t_group_msg.rows.filter fun r => r.group_id = group_id ∧ last_msg_id < r.id).take
        100).map groupMsgCells), t)

def newMsgs : Query → Int → List ChatMsgRow
  | insertChatMsg msg_id from_uid to_uid content now, id =>
    [⟨id, msg_id, from_uid, to_uid, content, now⟩]
  | _, _ => []

theorem rows_exec (q : Query) (t : Tables) :
    (q.exec t).2.t_chat_msg.rows = t.t_chat_msg.rows ++ q.newMsgs t.t_chat_msg.next := by
  have hnone : t.t_chat_msg.rows = t.t_chat_msg.rows ++ [] := (List.append_nil _).symm
  cases q with
  | insertChatMsg msg_id from_uid to_uid content now => rfl
  | insertFriend uid friend_uid now =>
    rw [exec]
    split <;> exact hnone
  | insertUser username password email =>
    rw [exec]
    split
    · split <;> exact hnone
    · exact hnone
  | _ => exact hnone

end Query
end LetsChat
