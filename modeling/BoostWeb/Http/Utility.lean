import Mathlib.Data.List.TakeWhile
import BoostWeb.Basic

/-! # MIME types

The table of `MimeType` and its lookup. The map is a search tree under the
comparator `compare_string_ignore_case_t`, built by assignments in the order
of the constructor; rebalancing, which no lookup can observe, is left out.
-/

namespace BoostWeb

namespace Http

/-- A `const char *` as the C library and the file system read it. -/
def cStr (s : Str) : Str := s.takeWhile (· ≠ '\x00')

theorem cStr_eq_self {s : Str} (h : '\x00' ∉ s) : cStr s = s := by
  rw [cStr, List.takeWhile_eq_self_iff]
  intro c hc
  rw [decide_eq_true_eq]
  rintro rfl
  exact h hc

theorem cStr_append {s : Str} (h : '\x00' ∈ s) (s' : Str) : cStr (s ++ s') = cStr s := by
  have hlen : (s.takeWhile (· ≠ '\x00')).length ≠ s.length := by
    intro hlen
    have heq := (List.takeWhile_prefix (l := s) (· ≠ '\x00')).eq_of_length hlen
    have := List.takeWhile_eq_self_iff.mp heq _ h
    simp at this
  rw [cStr, List.takeWhile_append, if_neg hlen, cStr]

end Http

/-- `strcasecmp` in the C locale. -/
def strcasecmp : Str → Str → Ordering
  | [], [] => .eq
  | [], _ :: _ => .lt
  | _ :: _, [] => .gt
  | a :: lhs, b :: rhs =>
    if a.toLower = b.toLower then strcasecmp lhs rhs
    else if a.toLower < b.toLower then .lt
    else .gt

def compareStringIgnoreCase (lhs rhs : Str) : Bool :=
  strcasecmp (Http.cStr lhs) (Http.cStr rhs) == .lt

/-- A `std::map` from strings to strings, as the search tree of its nodes. -/
inductive StringMap
  | leaf
  | node (left : StringMap) (key value : Str) (right : StringMap)

namespace StringMap

/-- `map[key] = value`: the key of a node that compares equivalent stays. -/
def assign (key value : Str) : StringMap → StringMap
  | leaf => node leaf key value leaf
  | node l k v r =>
    if compareStringIgnoreCase key k then node (l.assign key value) k v r
    else if compareStringIgnoreCase k key then node l k v (r.assign key value)
    else node l k value r

/-- `map.find(key)`. -/
def find (key : Str) : StringMap → Option Str
  | leaf => none
  | node l k v r =>
    if compareStringIgnoreCase key k then l.find key
    else if compareStringIgnoreCase k key then r.find key
    else some v

def values : StringMap → List Str
  | leaf => []
  | node l _ v r => l.values ++ v :: r.values

theorem mem_values_of_find {key v : Str} {map : StringMap} (h : map.find key = some v) :
    v ∈ map.values := by
  induction map with
  | leaf => cases h
  | node l k w r ihl ihr =>
    unfold find at h
    split_ifs at h
    · exact List.mem_append_left _ (ihl h)
    · exact List.mem_append_right _ (List.mem_cons_of_mem _ (ihr h))
    · cases h; simp [values]

theorem mem_values_assign {key value v : Str} {map : StringMap}
    (h : v ∈ (map.assign key value).values) : v = value ∨ v ∈ map.values := by
  induction map with
  | leaf => simpa [assign, values] using h
  | node l k w r ihl ihr =>
    unfold assign at h
    split_ifs at h <;> simp only [values, List.mem_append, List.mem_cons] at h ⊢
    · rcases h with h | h | h
      · rcases ihl h with h | h <;> simp [h]
      all_goals simp [h]
    · rcases h with h | h | h
      · simp [h]
      · simp [h]
      · rcases ihr h with h | h <;> simp [h]
    · rcases h with h | h | h <;> simp [h]

end StringMap

namespace MimeType

/-- The assignments of the constructor, in order. -/
def assignments : List (String × String) := [
  (".", "application/x-"), (".001", "application/x-001"), (".301", "application/x-301"),
  (".323", "text/h323"), (".3gp", "video/3gpp"), (".906", "application/x-906"),
  (".907", "drawing/907"), (".ivf", "video/x-ivf"), (".a11", "application/x-a11"),
  (".acp", "audio/x-mei-aac"), (".ai", "application/postscript"), (".aif", "audio/aiff"),
  (".aifc", "audio/aiff"), (".aiff", "audio/aiff"), (".anv", "application/x-anv"),
  (".asa", "text/asa"), (".asf", "video/x-ms-asf"), (".asp", "text/asp"),
  (".asx", "video/x-ms-asf"), (".au", "audio/basic"), (".avi", "video/x-msvideo"),
  (".awf", "application/vnd.adobe.workflow"), (".biz", "text/xml"),
  (".bmp", "application/x-MS-bmp"), (".bot", "application/x-bot"), (".c4t", "application/x-c4t"),
  (".c90", "application/x-c90"), (".cab", "application/x-shockwave-flash"),
  (".cal", "application/x-cals"), (".cat", "application/vnd.ms-pki.seccat"),
  (".cdf", "application/x-netcdf"), (".cdr", "application/x-cdr"), (".cel", "application/x-cel"),
  (".cer", "application/x-x509-ca-cert"), (".cg4", "application/x-g4"),
  (".cgm", "application/x-cgm"), (".chm", "application/mshelp"), (".cit", "application/x-cit"),
  (".class", "java/*"), (".cml", "text/xml"), (".cmp", "application/x-cmp"),
  (".cmx", "application/x-cmx"), (".cot", "application/x-cot"), (".crl", "application/pkix-crl"),
  (".crt", "application/x-x509-ca-cert"), (".csi", "application/x-csi"), (".css", "text/css"),
  (".cut", "application/x-cut"), (".dbf", "application/x-dbf"), (".dbm", "application/x-dbm"),
  (".dbx", "application/x-dbx"), (".dcd", "text/xml"), (".dcx", "application/x-dcx"),
  (".der", "application/x-x509-ca-cert"), (".dgn", "application/x-dgn"),
  (".dib", "application/x-dib"), (".dll", "application/x-msdownload"),
  (".doc", "application/msword"), (".dot", "application/msword"), (".drw", "application/x-drw"),
  (".dtd", "text/xml"), (".dwf", "application/x-dwf"), (".dwg", "application/x-dwg"),
  (".dxb", "application/x-dxb"), (".dxf", "application/x-dxf"),
  (".edn", "application/vnd.adobe.edn"), (".emf", "application/x-emf"), (".eml", "message/rfc822"),
  (".ent", "text/xml"), (".epi", "application/x-epi"), (".eps", "application/postscript"),
  (".etd", "application/x-ebx"), (".exe", "application/x-msdownload"), (".fax", "image/fax"),
  (".fdf", "application/vnd.fdf"), (".fif", "application/fractals"), (".fo", "text/xml"),
  (".frm", "application/x-frm"), (".g4", "application/x-g4"), (".gbr", "application/x-gbr"),
  (".gif", "image/gif"), (".gl2", "application/x-gl2"), (".gp4", "application/x-gp4"),
  (".gz", "application/x-gzip"), (".hgl", "application/x-hgl"), (".hlp", "application/mshelp"),
  (".hmr", "application/x-hmr"), (".hpg", "application/x-hpgl"), (".hpl", "application/x-hpl"),
  (".hqx", "application/mac-binhex40"), (".hrf", "application/x-hrf"), (".hta", "application/hta"),
  (".htc", "text/x-component"), (".htm", "text/html"), (".html", "text/html"),
  (".hts", "text/html"), (".htt", "text/webviewhtml"), (".htx", "text/html"),
  (".icb", "application/x-icb"), (".ico", "application/x-ico"), (".iff", "application/x-iff"),
  (".ig4", "application/x-g4"), (".igs", "application/x-igs"), (".iii", "application/x-iphone"),
  (".img", "application/x-img"), (".ins", "application/x-internet-signup"),
  (".isp", "application/x-internet-signup"), (".jar", "application/java-archive"),
  (".java", "java/*"), (".jfif", "image/jpeg"), (".jpe", "image/jpeg"), (".jpeg", "image/jpeg"),
  (".jpg", "image/jpeg"), (".jpz", "image/jpeg"), (".js", "text/javascript"),
  (".json", "application/json"), (".jsp", "text/html"), (".la1", "audio/x-liquid-file"),
  (".lar", "application/x-laplayer-reg"), (".latex", "application/x-latex"),
  (".lavs", "audio/x-liquid-secure"), (".lbm", "application/x-lbm"), (".lmsff", "audio/x-la-lms"),
  (".log", "text/plain"), (".ls", "application/x-javascript"), (".ltr", "application/x-ltr"),
  (".m1v", "video/x-mpeg"), (".m2v", "video/x-mpeg"), (".m3u", "audio/mpegurl"),
  (".m4e", "video/mpeg4"), (".mac", "application/x-mac"), (".man", "application/x-troff-man"),
  (".math", "text/xml"), (".mdb", "application/x-mdb"), (".mfp", "application/x-shockwave-flash"),
  (".mht", "message/rfc822"), (".mhtml", "message/rfc822"), (".mi", "application/x-mi"),
  (".mid", "audio/midi"), (".midi", "audio/midi"), (".mil", "application/x-mil"),
  (".mml", "text/xml"), (".mnd", "audio/x-musicnet-download"), (".mns", "audio/x-musicnet-stream"),
  (".mocha", "application/x-javascript"), (".mov", "video/quicktime"),
  (".movie", "video/x-sgi-movie"), (".mp1", "audio/mp1"), (".mp2", "audio/x-mpeg"),
  (".mp2v", "video/mpeg"), (".mp3", "audio/x-mpeg"), (".mp4", "video/mp4"),
  (".mpa", "video/x-mpg"), (".mpd", "application/vnd.ms-project"), (".mpe", "video/mpeg"),
  (".mpeg", "video/mpeg"), (".mpg", "video/mpeg"), (".mpg4", "video/mp4"), (".mpga", "video/mpeg"),
  (".mpp", "application/vnd.ms-project"), (".mps", "video/x-mpeg"),
  (".mpt", "application/vnd.ms-project"), (".mpv", "video/mpg"), (".mpv2", "video/mpeg"),
  (".mpw", "application/vnd.ms-project"), (".mpx", "application/vnd.ms-project"),
  (".mtx", "text/xml"), (".mxp", "application/x-mmxp"), (".net", "image/pnetvue"),
  (".nrf", "application/x-nrf"), (".nws", "message/rfc822"), (".odc", "text/x-ms-odc"),
  (".out", "application/x-out"), (".p10", "application/pkcs10"), (".p12", "application/x-pkcs12"),
  (".p7b", "application/x-pkcs7-certificates"), (".p7c", "application/pkcs7-mime"),
  (".p7m", "application/pkcs7-mime"), (".p7r", "application/x-pkcs7-certreqresp"),
  (".p7s", "application/pkcs7-signature"), (".pc5", "application/x-pc5"),
  (".pci", "application/x-pci"), (".pcl", "application/x-pcl"), (".pcx", "application/x-pcx"),
  (".pdf", "application/pdf"), (".pdx", "application/vnd.adobe.pdx"),
  (".pfx", "application/x-pkcs12"), (".pgl", "application/x-pgl"), (".pic", "application/x-pic"),
  (".pko", "application/vnd.ms-pki.pko"), (".pl", "application/x-perl"), (".plg", "text/html"),
  (".pls", "audio/scpls"), (".plt", "application/x-plt"), (".png", "image/png"),
  (".pot", "application/mspowerpoint"), (".ppa", "application/vnd.ms-powerpoint"),
  (".ppm", "application/x-ppm"), (".pps", "application/mspowerpoint"),
  (".ppt", "application/mspowerpoint"), (".ppz", "application/mspowerpoint"),
  (".pr", "application/x-pr"), (".prf", "application/pics-rules"), (".prn", "application/x-prn"),
  (".prt", "application/x-prt"), (".ps", "application/postscript"), (".ptn", "application/x-ptn"),
  (".pwz", "application/vnd.ms-powerpoint"), (".r3t", "text/vnd.rn-realtext3d"),
  (".ra", "audio/vnd.rn-realaudio"), (".ram", "audio/x-pn-realaudio"),
  (".rar", "application/x-rar-compressed"), (".ras", "application/x-ras"),
  (".rat", "application/rat-file"), (".rdf", "text/xml"), (".rec", "application/vnd.rn-recording"),
  (".red", "application/x-red"), (".rgb", "application/x-rgb"),
  (".rjs", "application/vnd.rn-realsystem-rjs"), (".rjt", "application/vnd.rn-realsystem-rjt"),
  (".rlc", "application/x-rlc"), (".rle", "application/x-rle"), (".rm", "audio/x-pn-realaudio"),
  (".rmf", "application/vnd.adobe.rmf"), (".rmi", "audio/mid"),
  (".rmj", "application/vnd.rn-realsystem-rmj"), (".rmm", "audio/x-pn-realaudio"),
  (".rmp", "application/vnd.rn-rn_music_package"), (".rms", "application/vnd.rn-realmedia-secure"),
  (".rmvb", "audio/x-pn-realaudio"), (".rmx", "application/vnd.rn-realsystem-rmx"),
  (".rnx", "application/vnd.rn-realplayer"), (".rp", "image/vnd.rn-realpix"),
  (".rpm", "audio/x-pn-realaudio-plugin"), (".rsml", "application/vnd.rn-rsml"),
  (".rt", "text/vnd.rn-realtext"), (".rtf", "application/rtf"), (".rv", "video/vnd.rn-realvideo"),
  (".sam", "application/x-sam"), (".sat", "application/x-sat"), (".sdp", "application/sdp"),
  (".sdw", "application/x-sdw"), (".shtml", "text/html"), (".sit", "application/x-stuffit"),
  (".slb", "application/x-slb"), (".sld", "application/x-sld"), (".slk", "drawing/x-slk"),
  (".smi", "application/smil"), (".smil", "application/smil"), (".smk", "application/x-smk"),
  (".snd", "audio/basic"), (".sol", "text/plain"), (".sor", "text/plain"),
  (".spc", "application/x-pkcs7-certificates"), (".spl", "application/futuresplash"),
  (".spp", "text/xml"), (".ssm", "application/streamingmedia"),
  (".sst", "application/vnd.ms-pki.certstore"), (".stl", "application/vnd.ms-pki.stl"),
  (".stm", "text/html"), (".sty", "application/x-sty"), (".svg", "text/xml"),
  (".swf", "application/x-shockwave-flash"), (".swfl", "application/x-shockwave-flash"),
  (".tar", "application/x-tar"), (".tdf", "application/x-tdf"), (".tg4", "application/x-tg4"),
  (".tga", "application/x-tga"), (".tgz", "application/x-tar"), (".tif", "application/x-tif"),
  (".tiff", "image/tiff"), (".tld", "text/xml"), (".top", "drawing/x-top"),
  (".torrent", "application/x-bittorrent"), (".tsd", "text/xml"), (".txt", "text/plain"),
  (".uin", "application/x-icq"), (".uls", "text/iuls"), (".vcf", "text/x-vcard"),
  (".vda", "application/x-vda"), (".vdx", "application/vnd.visio"), (".vml", "text/xml"),
  (".vpg", "application/x-vpeg005"), (".vsd", "application/x-vsd"),
  (".vss", "application/vnd.visio"), (".vst", "application/x-vst"),
  (".vsw", "application/vnd.visio"), (".vsx", "application/vnd.visio"),
  (".vtx", "application/vnd.visio"), (".vxml", "text/xml"), (".wav", "audio/wav"),
  (".wax", "audio/x-ms-wax"), (".wb1", "application/x-wb1"), (".wb2", "application/x-wb2"),
  (".wb3", "application/x-wb3"), (".wbmp", "image/vnd.wap.wbmp"), (".wiz", "application/msword"),
  (".wk3", "application/x-wk3"), (".wk4", "application/x-wk4"), (".wkq", "application/x-wkq"),
  (".wks", "application/x-wks"), (".wm", "video/x-ms-wm"), (".wma", "audio/x-ms-wma"),
  (".wmd", "application/x-ms-wmd"), (".wmf", "application/x-wmf"), (".wml", "text/vnd.wap.wml"),
  (".wmv", "audio/x-ms-wmv"), (".wmx", "video/x-ms-wmx"), (".wmz", "application/x-ms-wmz"),
  (".wp6", "application/x-wp6"), (".wpd", "application/x-wpd"), (".wpg", "application/x-wpg"),
  (".wpl", "application/vnd.ms-wpl"), (".wq1", "application/x-wq1"), (".wr1", "application/x-wr1"),
  (".wri", "application/x-wri"), (".wrk", "application/x-wrk"), (".ws", "application/x-ws"),
  (".ws2", "application/x-ws"), (".wsc", "text/scriptlet"), (".wsdl", "text/xml"),
  (".wvx", "video/x-ms-wvx"), (".x_b", "application/x-x_b"), (".x_t", "application/x-x_t"),
  (".xdp", "application/vnd.adobe.xdp"), (".xdr", "text/xml"),
  (".xfd", "application/vnd.adobe.xfd"), (".xfdf", "application/vnd.adobe.xfdf"),
  (".xht", "application/xhtml+xml"), (".xhtm", "application/xhtml+xml"),
  (".xhtml", "application/xhtml+xml"), (".xla", "application/msexcel"),
  (".xls", "application/msexcel"), (".xlw", "application/x-xlw"), (".xml", "text/xml"),
  (".xpl", "audio/scpls"), (".xq", "text/xml"), (".xql", "text/xml"), (".xquery", "text/xml"),
  (".xsd", "text/xml"), (".xsl", "text/xml"), (".xslt", "text/xml"), (".xwd", "application/x-xwd"),
  (".zip", "application/zip")]

def mimeTypeMap : StringMap :=
  assignments.foldl (fun map kv => map.assign kv.1.toList kv.2.toList) .leaf

def defaultMimeType : Str := "application/octet-stream".toList

/-- `MimeType::operator()`. -/
def lookup (fileSuffix : Str) : Str := (mimeTypeMap.find fileSuffix).getD defaultMimeType

theorem mem_values_mimeTypeMap {v : Str} (h : v ∈ mimeTypeMap.values) :
    ∃ kv ∈ assignments, v = kv.2.toList := by
  have hfold : ∀ (kvs : List (String × String)) (map : StringMap),
      v ∈ (kvs.foldl (fun map kv => map.assign kv.1.toList kv.2.toList) map).values →
      (∃ kv ∈ kvs, v = kv.2.toList) ∨ v ∈ map.values := by
    intro kvs
    induction kvs with
    | nil => exact fun _ h => .inr h
    | cons kv kvs ih =>
      intro map hm
      rcases ih _ hm with ⟨kv', hkv, he⟩ | hm
      · exact .inl ⟨kv', List.mem_cons_of_mem _ hkv, he⟩
      · rcases StringMap.mem_values_assign hm with rfl | hm
        · exact .inl ⟨kv, List.mem_cons_self, rfl⟩
        · exact .inr hm
  exact (hfold assignments .leaf h).resolve_right (by simp [StringMap.values])

theorem lookup_cases (fileSuffix : Str) :
    lookup fileSuffix = defaultMimeType ∨ ∃ kv ∈ assignments, lookup fileSuffix = kv.2.toList := by
  unfold lookup
  cases hf : mimeTypeMap.find fileSuffix with
  | none => exact .inl rfl
  | some v => exact .inr (mem_values_mimeTypeMap (StringMap.mem_values_of_find hf))

end MimeType

/-- `filename.find_last_of("./")`, with the suffix of `filename` that starts there. -/
def findLastOfDotSlash : Str → Option Str
  | [] => none
  | c :: rest =>
    match findLastOfDotSlash rest with
    | some suffix => some suffix
    | none => if c = '.' ∨ c = '/' then some (c :: rest) else none

def getMimeType (filename : Str) : Str :=
  match findLastOfDotSlash filename with
  | some ('.' :: rest) => MimeType.lookup ('.' :: rest)
  | _ => MimeType.lookup []

theorem getMimeType_eq_lookup (filename : Str) :
    ∃ fileSuffix, getMimeType filename = MimeType.lookup fileSuffix := by
  unfold getMimeType
  split <;> exact ⟨_, rfl⟩

def pathCatenate (base path : Str) : Str := base ++ path

end BoostWeb
