import LetsChat.Lib.Decimal
import LetsChat.Lib.Endian

/-! The messages of `im.proto` and `im_service.proto`, and the serialiser that
protobuf generates for them. -/

namespace LetsChat
open Lib

abbrev Text := List Char

/-- `std::to_string` of an integer, and `<<` of one. -/
def to_string (n : Int) : Text := Decimal.print n

inductive ErrorCode
  | ERR_SUCCESS
  | ERR_SYS_ERROR
  | ERR_AUTH_FAIL
  | ERR_USER_NOT_FOUND
  | ERR_NOT_FRIEND
  deriving DecidableEq

def ErrorCode.toInt : ErrorCode → Int
  | ERR_SUCCESS => 0
  | ERR_SYS_ERROR => 1
  | ERR_AUTH_FAIL => 1001
  | ERR_USER_NOT_FOUND => 1002
  | ERR_NOT_FRIEND => 1003

structure LoginReq where
  uid : Int := 0
  token : Text := []
  device_id : Text := []
  last_msg_id : Int := 0
  deriving DecidableEq

structure LoginRes where
  err_code : ErrorCode := .ERR_SUCCESS
  err_msg : Text := []
  session_id : Text := []
  server_time : Int := 0
  deriving DecidableEq

/-- `msg_type` is an open enum, kept as its number. -/
structure ChatMsg where
  msg_id : Int := 0
  from_uid : Int := 0
  to_uid : Int := 0
  session_id : Int := 0
  msg_type : Int := 0
  content : Text := []
  create_time : Int := 0
  deriving DecidableEq

structure MsgSendReq where
  msg : ChatMsg := {}
  deriving DecidableEq

structure MsgSendRes where
  err_code : ErrorCode := .ERR_SUCCESS
  err_msg : Text := []
  msg_id : Int := 0
  create_time : Int := 0
  deriving DecidableEq

structure MsgPush where
  msg : ChatMsg := {}
  deriving DecidableEq

structure SyncMsgReq where
  uid : Int := 0
  last_msg_id : Int := 0
  deriving DecidableEq

structure SyncMsgRes where
  err_code : Int := 0
  err_msg : Text := []
  msgs : List ChatMsg := []
  deriving DecidableEq

structure RegisterReq where
  email : Text := []
  nickname : Text := []
  password : Text := []
  deriving DecidableEq

structure RegisterRes where
  err_code : Int := 0
  err_msg : Text := []
  uid : Int := 0
  deriving DecidableEq

structure HttpLoginReq where
  email : Text := []
  password : Text := []
  deriving DecidableEq

structure HttpLoginRes where
  err_code : Int := 0
  err_msg : Text := []
  uid : Int := 0
  token : Text := []
  nickname : Text := []
  avatar : Text := []
  deriving DecidableEq

structure GetUploadUrlReq where
  uid : Int := 0
  file_name : Text := []
  deriving DecidableEq

structure GetUploadUrlRes where
  err_code : Int := 0
  err_msg : Text := []
  upload_url : Text := []
  download_url : Text := []
  deriving DecidableEq

structure SendFriendReq where
  from_uid : Int := 0
  to_uid : Int := 0
  reason : Text := []
  deriving DecidableEq

structure SendFriendRes where
  err_code : ErrorCode := .ERR_SUCCESS
  err_msg : Text := []
  req_id : Int := 0
  deriving DecidableEq

structure RespondFriendReq where
  req_id : Int := 0
  accept : Bool := false
  deriving DecidableEq

structure RespondFriendRes where
  err_code : ErrorCode := .ERR_SUCCESS
  err_msg : Text := []
  deriving DecidableEq

structure FriendRequest where
  req_id : Int := 0
  from_uid : Int := 0
  to_uid : Int := 0
  reason : Text := []
  create_time : Int := 0
  status : Int := 0
  deriving DecidableEq

structure FriendListReq where
  uid : Int := 0
  deriving DecidableEq

structure FriendListRes where
  err_code : ErrorCode := .ERR_SUCCESS
  friend_uids : List Int := []
  deriving DecidableEq

structure GetFriendReqsReq where
  uid : Int := 0
  deriving DecidableEq

structure GetFriendReqsRes where
  err_code : ErrorCode := .ERR_SUCCESS
  requests : List FriendRequest := []
  deriving DecidableEq

structure PushMsgReq where
  to_uid : Int := 0
  content : Bytes := []
  deriving DecidableEq

structure PushMsgRes where
  err_code : Int := 0
  err_msg : Text := []
  deriving DecidableEq

/-- The generated parsers (`ParseFromArray` on the bytes it is given) and serialisers
(`SerializeToString`). -/
structure Protobuf where
  parseLoginReq : Bytes → Option LoginReq
  parseMsgSendReq : Bytes → Option MsgSendReq
  parseSyncMsgReq : Bytes → Option SyncMsgReq
  parseGetUploadUrlReq : Bytes → Option GetUploadUrlReq
  serializeLoginRes : LoginRes → Bytes
  serializeMsgSendRes : MsgSendRes → Bytes
  serializeSyncMsgRes : SyncMsgRes → Bytes
  serializeGetUploadUrlRes : GetUploadUrlRes → Bytes
  serializeMsgPush : MsgPush → Bytes

end LetsChat
