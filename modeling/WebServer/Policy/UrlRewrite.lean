import WebServer.Lib.Joined
import WebServer.Policy.Redirects
import WebServer.Policy.UrlAuth

/-!
# WebServer.Policy.UrlRewrite

What is left of a signed URL when it is forwarded.

`parse_query` takes the query apart at the ampersands and drops the parameters that sign it;
`cleaned_target` puts the others together again. An empty `rewritten_target` tells the dispatcher that
there is nothing to rewrite.

* `parseQuery_eq_loop`: the loop of the source, which cuts the query piece by piece.
* `parseQuery_retained`: what it keeps is a filter of the parameters.
* `Rewritten`: what a rewritten target is; `authenticate_rewrites`: every accepted one is.
-/

namespace WebServer
namespace Policy

open Http

/-! ## The loop of the source -/

theorem cut_length {c : UInt8} {t l rest : Text} (h : cut c t = some (l, rest)) :
    rest.length < t.length := by
  rw [eq_of_cut h]
  simp
  omega

/-- `parse_query` -/
def parseQueryLoop (result : ParsedQuery) (query : Text) : ParsedQuery :=
  if query = [] then result
  else
    match h : cut 38 query with
    | none => addParameter result query
    | some (parameter, rest) =>
      have := cut_length h
      parseQueryLoop (addParameter result parameter) rest
termination_by query.length

theorem addParameter_nil (result : ParsedQuery) : addParameter result [] = result := by
  simp [addParameter, splitParameter, cut, ascii]

theorem splitOn_of_cut {c : UInt8} {t l rest : Text} (h : cut c t = some (l, rest)) :
    t.splitOn c = l :: rest.splitOn c := by
  have hrest : [c].intercalate (rest.splitOn c) = rest := List.intercalate_splitOn c
  rw [Joined.splitOn_eq_iff]
  refine ⟨by simp, fun piece hpiece => ?_, ?_⟩
  · rcases List.mem_cons.mp hpiece with rfl | hpiece
    · exact cut_some_not_mem h
    · exact Joined.not_mem_of_mem_splitOn hpiece
  · rw [Joined.intercalate_cons (List.splitOn_ne_nil c rest), hrest]
    exact eq_of_cut h

theorem splitOn_of_cut_none {c : UInt8} {t : Text} (h : cut c t = none) : t.splitOn c = [t] := by
  rw [Joined.splitOn_eq_iff]
  exact ⟨by simp, by simpa using cut_none_not_mem h, by simp⟩

theorem parseQueryLoop_eq (result : ParsedQuery) (query : Text) :
    parseQueryLoop result query = (query.splitOn 38).foldl addParameter result := by
  fun_induction parseQueryLoop result query with
  | case1 => simp [addParameter_nil]
  | case2 result query _ h =>
    rw [splitOn_of_cut_none h]
    rfl
  | case3 result query _ parameter rest h _ ih =>
    rw [splitOn_of_cut h, ih]
    rfl

theorem parseQuery_eq_loop (query : Text) : parseQuery query = parseQueryLoop {} query :=
  (parseQueryLoop_eq {} query).symm

/-! ## Parameters -/

/-- The pieces of the query between ampersands. -/
def queryParameters (target : Text) : List Text :=
  match cut 63 target with
  | none => []
  | some (_, query) => query.splitOn 38

/-- The text before the first equals sign. -/
def parameterName (parameter : Text) : Text := (splitParameter parameter).1

def reservedNames : List Text := [ascii "auth_key", ascii "sign", ascii "time"]

/-- The parameter is passed on. -/
def isRetained (parameter : Text) : Bool :=
  parameter ≠ [] && !reservedNames.contains (parameterName parameter)

theorem isRetained_iff (parameter : Text) :
    isRetained parameter = true ↔ parameterName parameter ≠ ascii "auth_key" ∧
      parameterName parameter ≠ ascii "sign" ∧ parameterName parameter ≠ ascii "time" ∧
      parameter ≠ [] := by
  simp only [isRetained, reservedNames, Bool.and_eq_true, Bool.not_eq_true', decide_eq_true_eq,
    List.contains_eq_mem, decide_eq_false_iff_not, List.mem_cons, List.not_mem_nil, or_false, not_or]
  tauto

theorem addParameter_retained (result : ParsedQuery) (parameter : Text) :
    (addParameter result parameter).retainedParameters =
      result.retainedParameters ++ if isRetained parameter then [parameter] else [] := by
  have hiff := isRetained_iff parameter
  unfold addParameter
  dsimp only
  split
  · rename_i hname
    rw [if_neg fun h => (hiff.mp h).1 hname]
    simp
  · rename_i hname
    split
    · rename_i hkept
      rw [if_pos (hiff.mpr ⟨hname, hkept⟩)]
    · rename_i hdropped
      rw [if_neg fun h => hdropped (hiff.mp h).2]
      simp

theorem parseQuery_retained (query : Text) :
    (parseQuery query).retainedParameters = (query.splitOn 38).filter isRetained := by
  have hfold : ∀ (parameters : List Text) (result : ParsedQuery),
      (parameters.foldl addParameter result).retainedParameters =
        result.retainedParameters ++ parameters.filter isRetained := by
    intro parameters
    induction parameters with
    | nil => intro result; simp
    | cons parameter rest ih =>
      intro result
      rw [List.foldl_cons, ih, addParameter_retained, List.filter_cons]
      split <;> simp
  rw [parseQuery, hfold]
  rfl

theorem splitTarget_query (target : Text) :
    (parseQuery (splitTarget target).2).retainedParameters =
      (queryParameters target).filter isRetained := by
  rw [parseQuery_retained]
  unfold splitTarget queryParameters
  cases cut 63 target with
  | none => rfl
  | some parts => rfl

/-! ## Rewritten targets -/

/-- The target as `cleaned_target` writes it, from its own path and query. -/
def filteredTarget (target : Text) : Text :=
  cleanedTarget (splitTarget target).1 (parseQuery (splitTarget target).2).retainedParameters

structure Rewritten (target rewritten : Text) : Prop where
  path : (splitTarget rewritten).1 = (splitTarget target).1
  parameters : queryParameters rewritten = (queryParameters target).filter isRetained
  bare : (queryParameters target).filter isRetained = [] → 63 ∉ rewritten
  unreserved : ∀ parameter ∈ queryParameters rewritten, parameterName parameter ∉ reservedNames
  stable : filteredTarget rewritten = rewritten

section Cleaned

variable {path : Text} {parameters : List Text}

theorem cut_cleanedTarget (hpath : 63 ∉ path) :
    cut 63 (cleanedTarget path parameters) =
      if parameters = [] then none else some (path, [38].intercalate parameters) := by
  have hfree : ∀ b ∈ path, b ≠ 63 := fun b hb hb63 => hpath (hb63 ▸ hb)
  unfold cleanedTarget
  split
  · exact cut_eq_none hfree
  · rw [List.append_assoc, List.singleton_append]
    exact cut_append hfree _

theorem splitTarget_cleanedTarget (hpath : 63 ∉ path) :
    (splitTarget (cleanedTarget path parameters)).1 = path := by
  unfold splitTarget
  rw [cut_cleanedTarget hpath]
  split
  · rename_i hnil
    simp [cleanedTarget, hnil]
  · rfl

theorem queryParameters_cleanedTarget (hpath : 63 ∉ path)
    (hfree : ∀ parameter ∈ parameters, 38 ∉ parameter) :
    queryParameters (cleanedTarget path parameters) = parameters := by
  unfold queryParameters
  rw [cut_cleanedTarget hpath]
  by_cases hnil : parameters = []
  · simp [hnil]
  · rw [if_neg hnil]
    exact List.splitOn_intercalate 38 hfree hnil

theorem ampersand_not_mem (target : Text) :
    ∀ parameter ∈ queryParameters target, (38 : UInt8) ∉ parameter := by
  unfold queryParameters
  cases cut 63 target with
  | none => simp
  | some parts => exact fun parameter h => Joined.not_mem_of_mem_splitOn h

theorem rewritten_filteredTarget (target : Text) : Rewritten target (filteredTarget target) := by
  have hpath := query_not_mem_path target
  have hfree : ∀ parameter ∈ (queryParameters target).filter isRetained, (38 : UInt8) ∉ parameter :=
    fun parameter h => ampersand_not_mem target parameter (List.mem_filter.mp h).1
  have hparameters : queryParameters (filteredTarget target) =
      (queryParameters target).filter isRetained := by
    rw [filteredTarget, splitTarget_query, queryParameters_cleanedTarget hpath hfree]
  have hpath' : (splitTarget (filteredTarget target)).1 = (splitTarget target).1 :=
    splitTarget_cleanedTarget hpath
  refine ⟨hpath', hparameters, fun hnil => ?_, fun parameter h => ?_, ?_⟩
  · rw [filteredTarget, splitTarget_query, hnil, cleanedTarget, if_pos rfl]
    exact hpath
  · rw [hparameters, List.mem_filter] at h
    obtain ⟨hauth, hsign, htime, -⟩ := (isRetained_iff parameter).mp h.2
    simp [reservedNames, hauth, hsign, htime]
  · -- the parameters that are left pass the filter once more
    rw [filteredTarget, splitTarget_query, hparameters, hpath', List.filter_filter]
    simp only [Bool.and_self]
    rw [filteredTarget, splitTarget_query]

end Cleaned

/-! ## The dispatcher -/

/-- The target of the request that the dispatcher hands to the proxy. -/
def forwardedTarget (target : Text) (authentication : UrlAuthResult) : Text :=
  if authentication.rewrittenTarget ≠ [] then authentication.rewrittenTarget else target

section Forwarded

variable {u : UrlAuthenticator} {md5 : Text → Option Text} {target : Text} {now : Int64}
  {r : UrlAuthResult}

theorem suppliedKey_parsed {parsed : ParsedQuery} {a : AuthKey}
    (h : suppliedKey target = some (parsed, a)) : parsed = parseQuery (splitTarget target).2 := by
  unfold suppliedKey at h
  unfold splitTarget
  cases hcut : cut 63 target with
  | none =>
    rw [hcut] at h
    cases h
  | some parts =>
    obtain ⟨path, query⟩ := parts
    simp only [hcut] at h
    split at h
    · cases h
    · split at h
      · cases h
      · split at h
        · cases h
          rfl
        · cases h

theorem rewrittenTarget_eq (h : u.authenticate md5 target now = some r) (hallowed : r.allowed = true)
    (happlied : r.authenticationApplied = true) : r.rewrittenTarget = filteredTarget target := by
  unfold UrlAuthenticator.authenticate at h
  dsimp only at h
  split at h
  · cases h
    cases happlied
  · split at h
    · cases h
      cases hallowed
    · rename_i parsed a hkey
      have hparsed := suppliedKey_parsed hkey
      split at h
      · cases h
        cases hallowed
      · split at h
        · cases h
        · cases h
          cases hallowed
        · split at h
          · cases h
            rw [hparsed]
            rfl
          · cases h
            cases hallowed

theorem path_ne_nil {request : RequestView} (h : validReverseProxyTarget request = true) :
    (splitTarget request.target).1 ≠ [] := by
  intro hnil
  have htarget : request.target = [] ∨ request.target.head? = some 63 := by
    unfold splitTarget at hnil
    cases hcut : cut 63 request.target with
    | none =>
      rw [hcut] at hnil
      exact .inl hnil
    | some parts =>
      rw [hcut] at hnil
      change parts.1 = [] at hnil
      rw [eq_of_cut hcut, hnil]
      exact .inr rfl
  unfold validReverseProxyTarget at h
  rcases htarget with htarget | htarget
  · simp [htarget] at h
  · have hstar : request.target ≠ ascii "*" := by
      intro hstar
      rw [hstar] at htarget
      exact absurd htarget (by decide)
    split at h
    · cases h
    · rw [htarget] at h
      exact absurd h (by decide)

end Forwarded

/-- With authentication the signing parameters go, and that is what the proxy gets; without it the
target goes as it came. -/
theorem authenticate_rewrites (u : UrlAuthenticator) (md5 : Text → Option Text)
    (request : RequestView) (now : Int64) (r : UrlAuthResult)
    (h : u.authenticate md5 request.target now = some r) :
    (r.allowed = true → r.authenticationApplied = true →
      Rewritten request.target r.rewrittenTarget ∧
        (validReverseProxyTarget request = true →
          forwardedTarget request.target r = r.rewrittenTarget)) ∧
    (u.spec.enabled = false ∨ u.protects (splitTarget request.target).1 = false →
      r.allowed = true ∧ forwardedTarget request.target r = request.target) := by
  refine ⟨fun hallowed happlied => ?_, fun hbypass => ?_⟩
  · rw [rewrittenTarget_eq h hallowed happlied]
    refine ⟨rewritten_filteredTarget _, fun hvalid => ?_⟩
    have hne : filteredTarget request.target ≠ [] := by
      intro hnil
      have hpath := (rewritten_filteredTarget request.target).path
      rw [hnil] at hpath
      exact path_ne_nil hvalid hpath.symm
    rw [forwardedTarget, rewrittenTarget_eq h hallowed happlied, if_pos hne]
  · have hskip : (!u.spec.enabled || !u.protects (splitTarget request.target).1) = true := by
      simpa using hbypass
    unfold UrlAuthenticator.authenticate at h
    dsimp only at h
    rw [if_pos hskip] at h
    cases h
    exact ⟨rfl, rfl⟩

/-- The URL of the tests, with the parameters of an older signature. -/
def legacyRequest : RequestView where
  method := ascii "GET"
  target := videoTarget' ++ ascii "&sign=legacy&time=1444435200&download=1"
  userAgent := []
  referer := []
  headerValue := fun _ => []

def legacyResult : UrlAuthResult :=
  ⟨true, true, ascii "/video/standard/test.mp4?quality=hd&download=1"⟩

theorem authenticate_rewrites_legacy :
    Rewritten legacyRequest.target legacyResult.rewrittenTarget ∧
      forwardedTarget legacyRequest.target legacyResult = legacyResult.rewrittenTarget := by
  have h := authenticate_rewrites ⟨videoSpec⟩ videoMd5 legacyRequest 1444435200 legacyResult
    (by decide)
  obtain ⟨hrewritten, hforwarded⟩ := h.1 rfl rfl
  exact ⟨hrewritten, hforwarded (by decide)⟩

end Policy
end WebServer
