import LetsChat.DbClient
import LetsChat.StdString

/-! `s3_client.h`: the endpoints that the client is made from, and the part that a request
runs through: the assign call, the map from object names to file ids, and the two URLs. -/

namespace LetsChat
open Lib Prog

structure ParsedEndpoint where
  scheme : Text
  host : Text
  port : Int
  deriving DecidableEq

def IsInt (n : Int) : Prop := -2 ^ 31 ≤ n ∧ n < 2 ^ 31

instance (n : Int) : Decidable (IsInt n) := inferInstanceAs (Decidable (_ ∧ _))

namespace ParsedEndpoint

/-- `std::stoi` throws when the text starts with no number, and when the number is no `int`. -/
def stoi (s : Text) : Option Int := (Decimal.read s).filter (IsInt ·)

/-- `parsed.scheme` and what `remain` is then. -/
def splitScheme (endpoint default_scheme : Text) : Option (Text × Text) :=
  match find endpoint "://".toList 0 with
  | none => some (default_scheme, endpoint)
  | some scheme_pos => do
    let scheme ← substr endpoint 0 scheme_pos
    let remain ← substr_to_end endpoint (scheme_pos + 3)
    some (scheme, remain)

def cutPath (remain : Text) : Option Text :=
  match find remain "/".toList 0 with
  | none => some remain
  | some slash_pos => substr remain 0 slash_pos

end ParsedEndpoint

open ParsedEndpoint in
def parseEndpoint (endpoint default_scheme : Text) (default_port : Int) : Option ParsedEndpoint := do
  let (scheme, remain) ← splitScheme endpoint default_scheme
  let remain ← cutPath remain
  match rfind remain ":".toList with
  | none => some { scheme, host := remain, port := default_port }
  | some port_pos => do
    let host ← substr remain 0 port_pos
    let digits ← substr_to_end remain (port_pos + 1)
    let port ← ParsedEndpoint.stoi digits
    some { scheme, host, port }

structure S3Client where
  master_ : ParsedEndpoint
  public_ : ParsedEndpoint
  bucket_ : Text
  access_key_ : Text
  secret_key_ : Text

def extractJsonValue (json key : Text) : Option Text :=
  let search := "\"".toList ++ key ++ "\":\"".toList
  match find json search 0 with
  | none =>
    let search := "\"".toList ++ key ++ "\":".toList
    match find json search 0 with
    | none => some []
    | some start =>
      let start := start + search.length
      substr json start (distance (find_first_of json ",\x7d".toList start) start)
  | some start =>
    let start := start + search.length
    substr json start (distance (find json "\"".toList start) start)

namespace S3Client

/-- The constructor, which throws when one of the endpoints does not parse. -/
def new (master_endpoint public_endpoint bucket access_key secret_key : Text) : Option S3Client := do
  let master_ ← parseEndpoint master_endpoint "http".toList 9333
  let public_ ← parseEndpoint public_endpoint "http".toList 8080
  some { master_, public_, bucket_ := bucket, access_key_ := access_key, secret_key_ := secret_key }

def buildPublicBaseUrl (s3 : S3Client) : Text :=
  s3.public_.scheme ++ "://".toList ++ s3.public_.host ++ ":".toList ++ to_string s3.public_.port

def finalUrl (s3 : S3Client) (object_name fid : Text) : Text :=
  s3.buildPublicBaseUrl ++ "/".toList ++ fid ++ "?collection=".toList ++ s3.bucket_
    ++ "&filename=".toList ++ object_name
    ++ (if s3.access_key_ = [] then [] else "&accessKey=".toList ++ s3.access_key_)
    ++ (if s3.secret_key_ = [] then [] else "&secretKey=".toList ++ s3.secret_key_)

def getPresignedPutUrl (s3 : S3Client) (object_name : Text) : Prog Op.Ret Text := do
  let assign_path := "/dir/assign?count=1&collection=".toList ++ s3.bucket_
  let response ← httpGet s3.master_.host s3.master_.port assign_path
  if response = [] then return []
  let fid ← ofOption (extractJsonValue response "fid".toList)
  if fid = [] then return []
  fidStore object_name fid
  return s3.finalUrl object_name fid

def getDownloadUrl (s3 : S3Client) (object_name : Text) : Prog Op.Ret Text := do
  let fid := (← fidFind object_name).getD []
  if fid = [] then return []
  return s3.buildPublicBaseUrl ++ "/".toList ++ fid ++ "?collection=".toList ++ s3.bucket_

end S3Client
end LetsChat
