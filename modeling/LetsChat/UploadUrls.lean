import LetsChat.JsonReply
import LetsChat.LogicService

/-! Any number of `GetUploadUrl` calls on one `S3Client`, one map access at a time. Calls
that differ in user, clock reading or file name have different keys in the map. -/

namespace LetsChat
open Lib Prog Machine

def objectKey (uid now : Int) (file_name : Text) : Text :=
  to_string uid ++ "/".toList ++ to_string now ++ "_".toList ++ file_name

theorem objectKey_injective {uid uid' now now' : Int} {name name' : Text}
    (h : objectKey uid now name = objectKey uid' now' name') :
    uid = uid' ∧ now = now' ∧ name = name' := by
  have hslash : ∀ n : Int, '/' ∉ to_string n := fun n =>
    Decimal.not_mem_print (by decide) (by decide)
  have hunderscore : ∀ n : Int, '_' ∉ to_string n := fun n =>
    Decimal.not_mem_print (by decide) (by decide)
  unfold objectKey at h
  rw [List.append_assoc, List.append_assoc, List.append_assoc, List.append_assoc, List.append_assoc,
    List.append_assoc] at h
  obtain ⟨huid, hrest⟩ := append_cons_inj (hslash uid) (hslash uid') h
  obtain ⟨hnow, hname⟩ := append_cons_inj (hunderscore now) (hunderscore now') hrest
  exact ⟨Decimal.print_injective huid, Decimal.print_injective hnow, hname⟩

namespace S3Client

def assignPath (s3 : S3Client) : Text := "/dir/assign?count=1&collection=".toList ++ s3.bucket_

def downloadUrl (s3 : S3Client) (fid : Text) : Text :=
  s3.buildPublicBaseUrl ++ "/".toList ++ fid ++ "?collection=".toList ++ s3.bucket_

def fidOf (response : Text) : Option Text :=
  if response = [] then none else (extractJsonValue response "fid".toList).filter (· ≠ [])

def assignedFid (s3 : S3Client) (e : Env) : Option Text :=
  fidOf (e.httpGet s3.master_.host s3.master_.port s3.assignPath)

end S3Client

abbrev Uploading := Conf Op.Ret GetUploadUrlReq Env World GetUploadUrlRes

def uploading (impl : LogicServiceImpl) :
    Machine Uploading (Sched GetUploadUrlReq Env) (Option (Event Op.Ret)) :=
  interleaving impl.getUploadUrl Env.exec

namespace LogicServiceImpl
variable (impl : LogicServiceImpl)

def failure : GetUploadUrlRes :=
  { err_code := ErrorCode.ERR_SYS_ERROR.toInt, err_msg := "SeaweedFS unavailable".toList }

def success (key fid : Text) : GetUploadUrlRes :=
  { err_code := ErrorCode.ERR_SUCCESS.toInt, upload_url := impl.s3_.finalUrl key fid,
    download_url := impl.s3_.downloadUrl fid }

def lookUp (key upload_url : Text) : Prog Op.Ret GetUploadUrlRes := do
  let download_url ← impl.s3_.getDownloadUrl key
  if upload_url = [] ∨ download_url = [] then return failure
  return { err_code := ErrorCode.ERR_SUCCESS.toInt, upload_url, download_url }

def afterAssign (key response : Text) : Prog Op.Ret GetUploadUrlRes :=
  match S3Client.fidOf response with
  | none => impl.lookUp key []
  | some fid => do
    fidStore key fid
    impl.lookUp key (impl.s3_.finalUrl key fid)

theorem putUrl_bind {α : Type} (key : Text) (f : Text → Prog Op.Ret α) :
    (impl.s3_.getPresignedPutUrl key >>= f) =
      op (Op.httpGet impl.s3_.master_.host impl.s3_.master_.port impl.s3_.assignPath) fun response =>
        match S3Client.fidOf response with
        | none => f []
        | some fid => fidStore key fid >>= fun _ => f (impl.s3_.finalUrl key fid) := by
  unfold S3Client.getPresignedPutUrl
  simp only [httpGet_bind, op_bind]
  congr 1
  funext response
  by_cases hempty : response = []
  · rw [ite_bind, if_pos hempty, S3Client.fidOf, if_pos hempty]
    rfl
  · obtain ⟨fid, hfid⟩ := extractJsonValue_isSome response "fid".toList
    rw [ite_bind, if_neg hempty, S3Client.fidOf, if_neg hempty, hfid]
    by_cases hnil : fid = []
    · subst hnil
      rfl
    · have hfilter : (some fid).filter (fun fid => decide (fid ≠ [])) = some fid := by
        simp [Option.filter, hnil]
      rw [hfilter]
      simp [hnil]

theorem getUploadUrl_eq (r : GetUploadUrlReq) :
    impl.getUploadUrl r = op Op.systemClock fun now =>
      op (Op.httpGet impl.s3_.master_.host impl.s3_.master_.port impl.s3_.assignPath)
        (impl.afterAssign (objectKey r.uid now r.file_name)) := by
  unfold getUploadUrl
  rw [systemClock_bind]
  congr 1
  funext now
  exact impl.putUrl_bind (objectKey r.uid now r.file_name) _

def uploadReply (upload_url : Text) (found : Option Text) : GetUploadUrlRes :=
  let fid := found.getD []
  let download_url := if fid = [] then [] else impl.s3_.downloadUrl fid
  if upload_url = [] ∨ download_url = [] then failure
  else { err_code := ErrorCode.ERR_SUCCESS.toInt, upload_url, download_url }

theorem lookUp_eq (key upload_url : Text) :
    impl.lookUp key upload_url =
      op (Op.fidFind key) fun found => ret (impl.uploadReply upload_url found) := by
  unfold lookUp S3Client.getDownloadUrl
  simp only [fidFind_bind, op_bind]
  congr 1
  funext found
  unfold uploadReply
  by_cases hfid : found.getD [] = []
  · simp [hfid]
  · simp only [hfid, if_false, pure_eq, ret_bind]
    exact (apply_ite ret _ _ _).symm

theorem uploadReply_failed (found : Option Text) : impl.uploadReply [] found = failure := by
  unfold uploadReply
  exact if_pos (.inl rfl)

theorem baseUrl_ne_nil : impl.s3_.buildPublicBaseUrl ≠ [] := by
  unfold S3Client.buildPublicBaseUrl
  iterate 3 apply List.append_ne_nil_of_left_ne_nil
  exact List.append_ne_nil_of_right_ne_nil _ (List.cons_ne_nil _ _)

theorem finalUrl_ne_nil (key fid : Text) : impl.s3_.finalUrl key fid ≠ [] := by
  unfold S3Client.finalUrl
  iterate 8 apply List.append_ne_nil_of_left_ne_nil
  exact impl.baseUrl_ne_nil

theorem downloadUrl_ne_nil (fid : Text) : impl.s3_.downloadUrl fid ≠ [] := by
  unfold S3Client.downloadUrl
  iterate 4 apply List.append_ne_nil_of_left_ne_nil
  exact impl.baseUrl_ne_nil

theorem uploadReply_stored (key : Text) {fid : Text} (hfid : fid ≠ []) :
    impl.uploadReply (impl.s3_.finalUrl key fid) (some fid) = impl.success key fid := by
  unfold uploadReply success
  dsimp only
  rw [Option.getD_some, if_neg hfid, if_neg]
  exact fun hnil => hnil.elim (impl.finalUrl_ne_nil key fid) (impl.downloadUrl_ne_nil fid)

end LogicServiceImpl

theorem S3Client.fidOf_ne_nil {response fid : Text} (h : fidOf response = some fid) : fid ≠ [] := by
  unfold fidOf at h
  split at h
  · cases h
  · exact of_decide_eq_true (Option.filter_eq_some_iff.mp h).2

def uploadKey (r : GetUploadUrlReq) (e : Env) : Text := objectKey r.uid e.systemClock r.file_name

inductive Stage (impl : LogicServiceImpl) (map : Text → Option Text) (r : GetUploadUrlReq) (e : Env) :
    Prog Op.Ret GetUploadUrlRes → Prop
  | called : Stage impl map r e (impl.getUploadUrl r)
  | clocked : Stage impl map r e
    (op (Op.httpGet impl.s3_.master_.host impl.s3_.master_.port impl.s3_.assignPath)
      (impl.afterAssign (uploadKey r e)))
  | assigned {fid : Text} : impl.s3_.assignedFid e = some fid → Stage impl map r e
    (fidStore (uploadKey r e) fid >>= fun _ =>
      impl.lookUp (uploadKey r e) (impl.s3_.finalUrl (uploadKey r e) fid))
  | stored {fid : Text} : impl.s3_.assignedFid e = some fid → map (uploadKey r e) = some fid →
    Stage impl map r e (impl.lookUp (uploadKey r e) (impl.s3_.finalUrl (uploadKey r e) fid))
  | unassigned : impl.s3_.assignedFid e = none → Stage impl map r e (impl.lookUp (uploadKey r e) [])
  | succeeded {fid : Text} : impl.s3_.assignedFid e = some fid →
    Stage impl map r e (ret (impl.success (uploadKey r e) fid))
  | failed : impl.s3_.assignedFid e = none → Stage impl map r e (ret LogicServiceImpl.failure)

theorem Stage.frame {impl : LogicServiceImpl} {map map' : Text → Option Text} {r : GetUploadUrlReq}
    {e : Env} {rest : Prog Op.Ret GetUploadUrlRes} (h : Stage impl map r e rest)
    (hkey : map' (uploadKey r e) = map (uploadKey r e)) : Stage impl map' r e rest := by
  cases h with
  | called => exact .called
  | clocked => exact .clocked
  | assigned hfid => exact .assigned hfid
  | stored hfid hmap => exact .stored hfid (hkey.trans hmap)
  | unassigned hnone => exact .unassigned hnone
  | succeeded hfid => exact .succeeded hfid
  | failed hnone => exact .failed hnone

theorem Stage.next {impl : LogicServiceImpl} {w : World} {r : GetUploadUrlReq} {e : Env} {o : Op}
    {k : o.Ret → Prog Op.Ret GetUploadUrlRes} (h : Stage impl w.object_fid_map_ r e (op o k)) :
    Stage impl (e.exec o w).2.object_fid_map_ r e (k (e.exec o w).1) ∧
      ((e.exec o w).2.object_fid_map_ = w.object_fid_map_ ∨
        impl.s3_.assignedFid e ≠ none ∧ ∀ key ≠ uploadKey r e,
          (e.exec o w).2.object_fid_map_ key = w.object_fid_map_ key) := by
  generalize hp : op o k = p at h
  cases h with
  | called =>
    rw [impl.getUploadUrl_eq] at hp
    cases hp
    exact ⟨.clocked, .inl rfl⟩
  | clocked =>
    cases hp
    refine ⟨?_, .inl rfl⟩
    show Stage impl w.object_fid_map_ r e (impl.afterAssign (uploadKey r e)
      (e.httpGet impl.s3_.master_.host impl.s3_.master_.port impl.s3_.assignPath))
    unfold LogicServiceImpl.afterAssign
    split
    · next hnone => exact .unassigned hnone
    · next fid hfid => exact .assigned hfid
  | @assigned fid hfid =>
    cases hp
    refine ⟨.stored hfid (Function.update_self ..), .inr ⟨?_, fun key hkey => ?_⟩⟩
    · rw [hfid]
      exact Option.some_ne_none fid
    · exact Function.update_of_ne hkey _ _
  | @stored fid hfid hmap =>
    rw [impl.lookUp_eq] at hp
    cases hp
    refine ⟨?_, .inl rfl⟩
    show Stage impl w.object_fid_map_ r e (ret (impl.uploadReply _ (w.object_fid_map_ _)))
    rw [hmap, impl.uploadReply_stored _ (S3Client.fidOf_ne_nil hfid)]
    exact .succeeded hfid
  | unassigned hnone =>
    rw [impl.lookUp_eq] at hp
    cases hp
    refine ⟨?_, .inl rfl⟩
    show Stage impl w.object_fid_map_ r e (ret (impl.uploadReply [] (w.object_fid_map_ _)))
    rw [impl.uploadReply_failed]
    exact .failed hnone
  | succeeded => cases hp
  | failed => cases hp

def uploadTriple (r : GetUploadUrlReq) (e : Env) : Int × Int × Text :=
  (r.uid, e.systemClock, r.file_name)

theorem uploadKey_ne {r r' : GetUploadUrlReq} {e e' : Env}
    (h : uploadTriple r e ≠ uploadTriple r' e') : uploadKey r e ≠ uploadKey r' e' := by
  intro hkey
  obtain ⟨huid, hclock, hname⟩ := objectKey_injective hkey
  exact h (Prod.ext huid (Prod.ext hclock hname))

structure UploadInv (impl : LogicServiceImpl) (c : Uploading) : Prop where
  stages : ∀ t ∈ c.threads, Stage impl c.shared.object_fid_map_ t.call t.env t.rest
  distinct : (c.threads.map fun t => uploadTriple t.call t.env).Nodup

theorem UploadInv.triple_ne {impl : LogicServiceImpl} {c : Uploading} (hinv : UploadInv impl c)
    {j k : Nat} {t u : Thread Op.Ret GetUploadUrlReq Env GetUploadUrlRes}
    (hj : c.threads[j]? = some t) (hk : c.threads[k]? = some u) (hjk : j ≠ k) :
    uploadTriple t.call t.env ≠ uploadTriple u.call u.env := by
  intro heq
  have hsame : (c.threads.map fun t => uploadTriple t.call t.env)[j]? =
      (c.threads.map fun t => uploadTriple t.call t.env)[k]? := by
    rw [List.getElem?_map, List.getElem?_map, hj, hk, Option.map_some, Option.map_some, heq]
  have hlt : j < (c.threads.map fun t => uploadTriple t.call t.env).length := by
    rw [List.length_map]
    exact (List.getElem?_eq_some_iff.mp hj).1
  exact hjk ((List.getElem?_inj hlt hinv.distinct).mp hsame)

theorem UploadInv.next {impl : LogicServiceImpl} {c : Uploading} (hinv : UploadInv impl c)
    {k : Nat} {r : GetUploadUrlReq} {e : Env} {past : List (Event Op.Ret)} {o : Op}
    {next : o.Ret → Prog Op.Ret GetUploadUrlRes} (hk : c.threads[k]? = some ⟨r, e, past, op o next⟩) :
    Stage impl (e.exec o c.shared).2.object_fid_map_ r e (next (e.exec o c.shared).1) ∧
      ((e.exec o c.shared).2.object_fid_map_ = c.shared.object_fid_map_ ∨
        impl.s3_.assignedFid e ≠ none ∧ ∀ key ≠ uploadKey r e,
          (e.exec o c.shared).2.object_fid_map_ key = c.shared.object_fid_map_ key) :=
  Stage.next (hinv.stages _ (List.mem_of_getElem? hk))

theorem uploadInv_step {impl : LogicServiceImpl} {c c' : Uploading} {i : Sched GetUploadUrlReq Env}
    {out : Option (Event Op.Ret)} (hinv : UploadInv impl c) (hfresh : Fresh uploadTriple c i)
    (hs : (uploading impl).step c i = some (out, c')) : UploadInv impl c' := by
  have hcalls := calls_step uploadTriple hs
  rcases interleaving_step hs with
    ⟨r, e, rfl, rfl⟩ | ⟨k, r, e, past, o, next, rfl, hk, rfl⟩
  · refine ⟨fun t ht => ?_, ?_⟩
    · rcases List.mem_append.mp ht with ht | ht
      · exact hinv.stages t ht
      · obtain rfl := List.mem_singleton.mp ht
        exact .called
    · rw [hcalls]
      refine List.nodup_append.mpr ⟨hinv.distinct, List.nodup_singleton _, fun a ha b hb heq => ?_⟩
      obtain rfl := List.mem_singleton.mp hb
      exact hfresh r e rfl (heq ▸ ha)
  · obtain ⟨hnext, hmap⟩ := hinv.next hk
    refine ⟨fun t ht => ?_, ?_⟩
    · obtain ⟨j, hj⟩ := List.mem_iff_getElem?.mp ht
      rw [List.getElem?_set] at hj
      by_cases hjk : k = j
      · obtain ⟨-, hnew⟩ := Option.ite_none_right_eq_some.mp ((if_pos hjk).symm.trans hj)
        obtain rfl := Option.some.inj hnew
        exact hnext
      · rw [if_neg hjk] at hj
        have hold := hinv.stages t (List.mem_of_getElem? hj)
        rcases hmap with hsame | ⟨-, hothers⟩
        · exact hold.frame (congrFun hsame _)
        · exact hold.frame (hothers _ (uploadKey_ne (hinv.triple_ne hj hk (Ne.symm hjk))))
    · rw [hcalls]
      exact (List.append_nil _).symm ▸ hinv.distinct

/-- A finished call that replies success has two URLs with the file id that the master has
assigned to it. Without one it replies failure. -/
def NamesOneObject (impl : LogicServiceImpl)
    (t : Thread Op.Ret GetUploadUrlReq Env GetUploadUrlRes) : Prop :=
  t.rest ≠ .throw ∧ ∀ reply, t.rest = .ret reply →
    (reply.err_code = ErrorCode.ERR_SUCCESS.toInt → ∃ fid, impl.s3_.assignedFid t.env = some fid ∧
      reply.upload_url = impl.s3_.finalUrl (uploadKey t.call t.env) fid ∧
      reply.download_url = impl.s3_.downloadUrl fid) ∧
    (impl.s3_.assignedFid t.env = none → reply.err_code = ErrorCode.ERR_SYS_ERROR.toInt)

def FailureLeavesMap (impl : LogicServiceImpl) (c : Uploading) (i : Sched GetUploadUrlReq Env)
    (c' : Uploading) : Prop :=
  ∀ k t, i = .pick k → c.threads[k]? = some t → impl.s3_.assignedFid t.env = none →
    c'.shared.object_fid_map_ = c.shared.object_fid_map_

theorem Stage.namesOneObject {impl : LogicServiceImpl} {map : Text → Option Text}
    {t : Thread Op.Ret GetUploadUrlReq Env GetUploadUrlRes}
    (h : Stage impl map t.call t.env t.rest) : NamesOneObject impl t := by
  unfold NamesOneObject
  generalize t.rest = rest at h
  cases h with
  | called =>
    rw [impl.getUploadUrl_eq]
    exact ⟨nofun, nofun⟩
  | clocked => exact ⟨nofun, nofun⟩
  | assigned => exact ⟨nofun, nofun⟩
  | stored =>
    rw [impl.lookUp_eq]
    exact ⟨nofun, nofun⟩
  | unassigned =>
    rw [impl.lookUp_eq]
    exact ⟨nofun, nofun⟩
  | @succeeded fid hfid =>
    refine ⟨nofun, ?_⟩
    rintro _ ⟨⟩
    refine ⟨fun _ => ⟨fid, hfid, rfl, rfl⟩, fun hnone => ?_⟩
    rw [hfid] at hnone
    cases hnone
  | failed =>
    refine ⟨nofun, ?_⟩
    rintro _ ⟨⟩
    exact ⟨fun hsuccess => absurd hsuccess (by decide), fun _ => rfl⟩

theorem failureLeavesMap_step {impl : LogicServiceImpl} {c c' : Uploading}
    {i : Sched GetUploadUrlReq Env} {out : Option (Event Op.Ret)} (hinv : UploadInv impl c)
    (hs : (uploading impl).step c i = some (out, c')) : FailureLeavesMap impl c i c' := by
  rintro k t rfl ht hnone
  rcases interleaving_step hs with ⟨_, _, ⟨⟩, -⟩ | ⟨_, r, e, past, o, next, ⟨⟩, hk, rfl⟩
  obtain rfl := Option.some.inj (ht.symm.trans hk)
  rcases (hinv.next hk).2 with hsame | ⟨hassigned, -⟩
  · exact hsame
  · exact absurd hnone hassigned

theorem urls_name_one_object (impl : LogicServiceImpl) (w : World)
    (is : List (Sched GetUploadUrlReq Env))
    (hdistinct : (is.filterMap (called uploadTriple)).Nodup) :
    (uploading impl).EveryState (fun _ c => ∀ t ∈ c.threads, NamesOneObject impl t) [] ⟨w, []⟩ is ∧
      (uploading impl).EveryStep (fun _ c i _ c' => FailureLeavesMap impl c i c') [] ⟨w, []⟩ is := by
  have hinit : UploadInv impl ⟨w, []⟩ :=
    ⟨fun t ht => absurd ht List.not_mem_nil, List.nodup_nil⟩
  have hfresh : (uploading impl).EveryStep (fun _ c i _ _ => Fresh uploadTriple c i) [] ⟨w, []⟩ is :=
    everyStep_fresh uploadTriple hdistinct
  constructor
  · refine (everyState_of_guarded (I := fun _ => UploadInv impl) ?_ hinit hfresh).mono ?_
    · exact fun _ _ _ _ _ hinv hc hs => uploadInv_step hinv hc hs
    · exact fun _ _ hinv t ht => (hinv.stages t ht).namesOneObject
  · refine everyStep_of_guarded (I := fun _ => UploadInv impl) ?_ ?_ hinit hfresh
    · exact fun _ _ _ _ _ hinv hc hs => uploadInv_step hinv hc hs
    · exact fun _ _ _ _ _ hinv _ hs => failureLeavesMap_step hinv hs

def masterReplies (response : String) (clock : Int) : Env :=
  { Env.fair with
    systemClock := clock
    httpGet := fun _ _ _ => response.toList }

/-- Two uploads under keys that look alike, and one that the master does not answer. -/
def threeUploads : List (Sched GetUploadUrlReq Env) :=
  [.call { uid := 1, file_name := "6_b".toList } (masterReplies "\x7b\"fid\":\"3,01\"\x7d" 5),
    .call { uid := 1, file_name := "b".toList } (masterReplies "\x7b\"fid\":\"4,02\"\x7d" 56),
    .call { uid := 1, file_name := "b".toList } (masterReplies "" 57),
    .pick 0, .pick 1, .pick 2, .pick 2, .pick 1, .pick 0, .pick 0, .pick 1, .pick 2, .pick 1, .pick 0]

theorem urls_name_one_object_threeUploads :
    (threeUploads.filterMap (called uploadTriple)).Nodup ∧
      (uploading .bare).EveryState (fun _ c => ∀ t ∈ c.threads, NamesOneObject .bare t) []
        ⟨.empty, []⟩ threeUploads ∧
      (uploading .bare).EveryStep (fun _ c i _ c' => FailureLeavesMap .bare c i c') []
        ⟨.empty, []⟩ threeUploads :=
  ⟨by decide, urls_name_one_object .bare .empty threeUploads (by decide)⟩

end LetsChat
