import LetsChat.Lib.UrlQuery
import LetsChat.UploadUrls

/-! The parameters of an upload URL, as a server reads them: the client's file name stands in
the last layer of two concatenations that escape nothing. -/

namespace LetsChat
open Lib Prog UrlQuery

def UrlPlain (t : Text) : Prop := ∀ c ∈ t, c ∉ ['?', '#', '&', '%']

instance (t : Text) : Decidable (UrlPlain t) := List.decidableBAll _ t

theorem UrlPlain.harmless {t : Text} (h : UrlPlain t) : Harmless t :=
  ⟨fun hc => h _ hc (by decide), fun hc => h _ hc (by decide),
    unescaped_of_not_mem fun hc => h _ hc (by decide)⟩

namespace S3Client
variable (s3 : S3Client)

structure PlainParts (fid : Text) : Prop where
  fid : UrlPlain fid
  bucket : UrlPlain s3.bucket_
  access_key : UrlPlain s3.access_key_
  secret_key : UrlPlain s3.secret_key_

/-- A parameter that is left out when it is not configured. -/
def configured (name value : Text) : List (Text × Text) := if value = [] then [] else [(name, value)]

def parameters (object_name : Text) : List (Text × Text) :=
  ("collection".toList, s3.bucket_) :: ("filename".toList, object_name) ::
    (configured "accessKey".toList s3.access_key_ ++ configured "secretKey".toList s3.secret_key_)

theorem mem_configured {name value : Text} {f : Text × Text} (h : f ∈ configured name value) :
    f = (name, value) := by
  unfold configured at h
  split at h
  · exact absurd h List.not_mem_nil
  · exact List.mem_singleton.mp h

theorem names_configured (name value : Text) : ((configured name value).map Prod.fst).Sublist [name] := by
  unfold configured
  split
  · exact List.nil_sublist _
  · exact List.Sublist.refl _

theorem names_parameters (object_name : Text) : ((s3.parameters object_name).map Prod.fst).Sublist
    ["collection".toList, "filename".toList, "accessKey".toList, "secretKey".toList] := by
  have hkeys := (names_configured "accessKey".toList s3.access_key_).append
    (names_configured "secretKey".toList s3.secret_key_)
  rw [parameters, List.map_cons, List.map_cons, List.map_append]
  exact (hkeys.cons_cons _).cons_cons _

theorem cleanName_parameters (object_name : Text) : ∀ f ∈ s3.parameters object_name, CleanName f.1 := by
  intro f hf
  have hmem := (s3.names_parameters object_name).subset (List.mem_map_of_mem hf)
  have hall : ∀ name ∈ ["collection".toList, "filename".toList, "accessKey".toList,
      "secretKey".toList], CleanName name := by decide
  exact hall _ hmem

theorem finalUrl_eq (object_name fid : Text) :
    s3.finalUrl object_name fid =
      (s3.buildPublicBaseUrl ++ '/' :: fid) ++ '?' :: print (s3.parameters object_name) := by
  unfold finalUrl parameters print configured
  by_cases haccess : s3.access_key_ = [] <;> by_cases hsecret : s3.secret_key_ = [] <;>
    simp [haccess, hsecret, List.intercalate_cons_cons]

variable {s3} {fid : Text}

theorem harmless_parameters (h : s3.PlainParts fid) (object_name : Text) :
    (∀ f ∈ s3.parameters object_name, Harmless f.2) ↔ Harmless object_name := by
  unfold parameters
  rw [List.forall_mem_cons, List.forall_mem_cons]
  constructor
  · exact fun hall => hall.2.1
  · intro hname
    refine ⟨h.bucket.harmless, hname, fun f hf => ?_⟩
    rcases List.mem_append.mp hf with hf | hf
    · rw [mem_configured hf]
      exact h.access_key.harmless
    · rw [mem_configured hf]
      exact h.secret_key.harmless

/-- A fragment in the public endpoint hides all that stands behind it, and a mark there comes
before the mark that the client writes. -/
theorem params_finalUrl_iff (h : s3.PlainParts fid) (object_name : Text) :
    params (s3.finalUrl object_name fid) = s3.parameters object_name ↔
      if '#' ∈ s3.buildPublicBaseUrl then
        params s3.buildPublicBaseUrl = s3.parameters object_name
      else '?' ∉ s3.buildPublicBaseUrl ∧ Harmless object_name := by
  have hpath : ∀ {c : Char}, c ∉ s3.buildPublicBaseUrl → c ≠ '/' → c ∈ ['?', '#', '&', '%'] →
      c ∉ s3.buildPublicBaseUrl ++ '/' :: fid := by
    intro c hbase hslash hc
    apply List.not_mem_append hbase
    intro hmem
    rcases List.mem_cons.mp hmem with hmem | hmem
    · exact hslash hmem
    · exact h.fid c hmem hc
  rw [finalUrl_eq]
  by_cases hhash : '#' ∈ s3.buildPublicBaseUrl
  · rw [if_pos hhash, List.append_assoc, params_append_of_mem hhash]
  rw [if_neg hhash]
  have hfragment := hpath hhash (by decide) (by decide)
  by_cases hmark : '?' ∈ s3.buildPublicBaseUrl
  · have hcollection : CleanName "collection".toList := by decide
    have hfilename : CleanName "filename".toList := by decide
    have hfirst : '?' ∉ "collection".toList ∧ '?' ∉ s3.bucket_ :=
      ⟨by decide, fun hc => h.bucket _ hc (by decide)⟩
    have hnodup : ((s3.parameters object_name).map Prod.fst).Nodup :=
      (s3.names_parameters object_name).nodup (by decide)
    have hne := params_ne_of_mem (List.mem_append_left _ hmark) hfragment hnodup hcollection hfilename
      h.bucket.harmless.hash hfirst
    exact iff_of_false hne fun hsafe => hsafe.1 hmark
  · have hne : s3.parameters object_name ≠ [] := List.cons_ne_nil _ _
    rw [params_print_iff (hpath hmark (by decide) (by decide)) hfragment hne
      (s3.cleanName_parameters object_name), harmless_parameters h, and_iff_right hmark]

end S3Client

theorem harmless_objectKey (uid now : Int) (file_name : Text) :
    Harmless (objectKey uid now file_name) ↔ Harmless file_name := by
  have hnumber : ∀ {c : Char}, c.isDigit = false → c ≠ '-' → c ≠ '/' → c ≠ '_' →
      c ∉ to_string uid ++ "/".toList ++ to_string now ++ "_".toList := by
    intro c hd hsign hslash hunderscore
    refine List.not_mem_append (List.not_mem_append (List.not_mem_append ?_ ?_) ?_) ?_
    · exact Decimal.not_mem_print hd hsign
    · exact List.mem_singleton.not.mpr hslash
    · exact Decimal.not_mem_print hd hsign
    · exact List.mem_singleton.not.mpr hunderscore
  exact harmless_append (hnumber (by decide) (by decide) (by decide) (by decide))
    (hnumber (by decide) (by decide) (by decide) (by decide))
    (hnumber (by decide) (by decide) (by decide) (by decide)) file_name

namespace LogicServiceImpl
variable (impl : LogicServiceImpl)

theorem run_getUploadUrl {e : Env} {fid : Text} (hfid : impl.s3_.assignedFid e = some fid) (w : World)
    (r : GetUploadUrlReq) :
    (impl.getUploadUrl r).run e.exec w =
      (some (impl.success (uploadKey r e) fid),
        { w with object_fid_map_ := Function.update w.object_fid_map_ (uploadKey r e) (some fid) }) := by
  have hassign : S3Client.fidOf (e.httpGet impl.s3_.master_.host impl.s3_.master_.port
      impl.s3_.assignPath) = some fid := hfid
  have hstored : Function.update w.object_fid_map_ (uploadKey r e) (some fid) (uploadKey r e) =
      some fid := Function.update_self _ _ _
  rw [getUploadUrl_eq, run_op, run_op]
  unfold afterAssign
  simp only [Env.exec]
  rw [hassign]
  dsimp only
  rw [fidStore_bind, run_op, lookUp_eq, run_op, run_ret]
  simp only [Env.exec]
  rw [← uploadKey, hstored, uploadReply_stored impl _ (S3Client.fidOf_ne_nil hassign)]

def ParametersKept (e : Env) (w : World) (r : GetUploadUrlReq) : Prop :=
  ∃ reply w', (impl.getUploadUrl r).run e.exec w = (some reply, w') ∧
    params reply.upload_url = impl.s3_.parameters (uploadKey r e)

theorem parametersKept_run {e : Env} {fid : Text} (hfid : impl.s3_.assignedFid e = some fid)
    (w : World) (r : GetUploadUrlReq) :
    impl.ParametersKept e w r ↔
      params (impl.s3_.finalUrl (uploadKey r e) fid) = impl.s3_.parameters (uploadKey r e) := by
  have hrun := impl.run_getUploadUrl hfid w r
  constructor
  · rintro ⟨reply, w', hreply, hparams⟩
    rw [hrun] at hreply
    obtain rfl := Option.some.inj (congrArg Prod.fst hreply)
    exact hparams
  · intro hparams
    exact ⟨_, _, hrun, hparams⟩

end LogicServiceImpl

/-- The file name must have nothing in it that the reader of a query understands, unless the
public endpoint has hidden the query already. -/
theorem upload_parameters_iff (impl : LogicServiceImpl) (e : Env) (w : World) (r : GetUploadUrlReq)
    {fid : Text} (hfid : impl.s3_.assignedFid e = some fid) (hplain : impl.s3_.PlainParts fid) :
    impl.ParametersKept e w r ↔
      if '#' ∈ impl.s3_.buildPublicBaseUrl then
        params impl.s3_.buildPublicBaseUrl = impl.s3_.parameters (uploadKey r e)
      else '?' ∉ impl.s3_.buildPublicBaseUrl ∧ Harmless r.file_name := by
  rw [impl.parametersKept_run hfid w r, S3Client.params_finalUrl_iff hplain, uploadKey,
    harmless_objectKey]

/-- A client as the readme configures it. -/
def seaweed : LogicServiceImpl :=
  { LogicServiceImpl.bare with
    s3_ :=
      { master_ := ⟨"http".toList, "127.0.0.1".toList, 9333⟩
        public_ := ⟨"http".toList, "127.0.0.1".toList, 8080⟩
        bucket_ := "letschat".toList
        access_key_ := []
        secret_key_ := [] } }

def assigns : Env := masterReplies "\x7b\"fid\":\"3,01637037d6\"\x7d" 5

theorem seaweed_assignedFid : seaweed.s3_.assignedFid assigns = some "3,01637037d6".toList := by
  decide +kernel

theorem seaweed_plainParts : seaweed.s3_.PlainParts "3,01637037d6".toList :=
  ⟨by decide, by decide, by decide, by decide⟩

theorem upload_parameters_iff_demo :
    seaweed.s3_.assignedFid assigns = some "3,01637037d6".toList ∧
      seaweed.s3_.PlainParts "3,01637037d6".toList ∧
      (seaweed.ParametersKept assigns .empty { uid := 1, file_name := "demo.png".toList } ↔
        if '#' ∈ seaweed.s3_.buildPublicBaseUrl then
          params seaweed.s3_.buildPublicBaseUrl =
            seaweed.s3_.parameters (uploadKey { uid := 1, file_name := "demo.png".toList } assigns)
        else '?' ∉ seaweed.s3_.buildPublicBaseUrl ∧ Harmless "demo.png".toList) :=
  ⟨seaweed_assignedFid, seaweed_plainParts,
    upload_parameters_iff seaweed assigns .empty _ seaweed_assignedFid seaweed_plainParts⟩

theorem name_adds_parameter : ¬seaweed.ParametersKept assigns .empty
    { uid := 1, file_name := "a&collection=x".toList } := by
  rw [seaweed.parametersKept_run seaweed_assignedFid]
  decide +kernel

end LetsChat
