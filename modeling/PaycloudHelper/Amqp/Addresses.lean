import Mathlib
import PaycloudHelper.Library.Splitting

/-!
# AMQP addresses

What is logged of an address, and what is added to it. An address is any list of
characters; nothing has parsed it yet.
-/

namespace PaycloudHelper.AmqpAddress

open Splitting

abbrev Addr := List Char

def schemeEnd : Addr := [':', '/', '/']

def stars : Addr := ['*', '*', '*', ':', '*', '*', '*']

def redactAmqpUri (uri : Addr) : Addr :=
  match splitOnce schemeEnd uri with
  | none => uri
  | some (scheme, rest) =>
    match rsplitOnce '@' rest with
    | none => uri
    | some (_, host) => scheme ++ schemeEnd ++ stars ++ '@' :: host

/-! ## Redaction -/

def scheme (uri : Addr) : Option Addr := (splitOnce schemeEnd uri).map Prod.fst

def afterScheme (uri : Addr) : Addr := ((splitOnce schemeEnd uri).map Prod.snd).getD uri

def afterLastAt (uri : Addr) : Option Addr := (rsplitOnce '@' uri).map Prod.snd

/-- The two have a user-info, and nothing else in which they differ. -/
structure AgreeButUserInfo (u v : Addr) : Prop where
  scheme : scheme u = scheme v
  host : afterLastAt u = afterLastAt v
  left : '@' ∈ afterScheme u
  right : '@' ∈ afterScheme v

def Hidden (u : Addr) : Prop := ∀ v, AgreeButUserInfo u v → redactAmqpUri u = redactAmqpUri v

variable {u v : Addr}

theorem redact_of_scheme {s : Addr} (hs : scheme u = some s) (hat : '@' ∈ afterScheme u) :
    ∃ host, afterLastAt u = some host ∧
      redactAmqpUri u = s ++ schemeEnd ++ stars ++ '@' :: host := by
  obtain ⟨⟨s', rest⟩, hsplit, rfl⟩ := Option.map_eq_some_iff.mp hs
  have hu : u = s' ++ schemeEnd ++ rest := eq_of_splitOnce hsplit
  have hrest : afterScheme u = rest := by simp [afterScheme, hsplit]
  rw [hrest] at hat
  cases hlast : rsplitOnce '@' rest with
  | none => exact absurd hat (rsplitOnce_eq_none.mp hlast)
  | some parts =>
    obtain ⟨info, host⟩ := parts
    have hwhole : rsplitOnce '@' u = some (s' ++ schemeEnd ++ info, host) := by
      rw [hu]
      exact rsplitOnce_append hlast _
    exact ⟨host, by simp [afterLastAt, hwhole], by simp [redactAmqpUri, hsplit, hlast]⟩

theorem redact_of_no_scheme (hs : scheme u = none) : redactAmqpUri u = u := by
  simp [redactAmqpUri, Option.map_eq_none_iff.mp hs]

theorem agree_cons (hs : scheme u = none) (hat : '@' ∈ u) : AgreeButUserInfo u ('x' :: u) := by
  have hnone : splitOnce schemeEnd u = none := Option.map_eq_none_iff.mp hs
  have hcons : splitOnce schemeEnd ('x' :: u) = none := by
    simpa [splitOnce, schemeEnd] using hnone
  obtain ⟨⟨info, host⟩, hlast⟩ : ∃ parts, rsplitOnce '@' u = some parts :=
    Option.ne_none_iff_exists'.mp fun h => rsplitOnce_eq_none.mp h hat
  constructor
  · simp [scheme, hnone, hcons]
  · simp [afterLastAt, rsplitOnce, hlast]
  · simpa [afterScheme, hnone] using hat
  · simpa [afterScheme, hcons] using hat

/-- The redaction of an address hides its user-info if and only if the address has a scheme
or no user-info. -/
theorem hidden_iff (u : Addr) : Hidden u ↔ (scheme u).isSome = true ∨ '@' ∉ u := by
  cases hs : scheme u with
  | none =>
    simp only [Option.isSome_none, Bool.false_eq_true, false_or]
    constructor
    · intro hhidden hat
      have hagree : AgreeButUserInfo u ('x' :: u) := agree_cons hs hat
      have heq : u = 'x' :: u := by
        have h := hhidden _ hagree
        rwa [redact_of_no_scheme hs, redact_of_no_scheme (hagree.scheme.symm.trans hs)] at h
      simpa using congrArg List.length heq
    · intro hat v hagree
      have hnone : splitOnce schemeEnd u = none := Option.map_eq_none_iff.mp hs
      have hleft : '@' ∈ u := by simpa [afterScheme, hnone] using hagree.left
      exact absurd hleft hat
  | some s =>
    refine iff_of_true (fun v hagree => ?_) (Or.inl rfl)
    obtain ⟨host, hhost, hu⟩ := redact_of_scheme hs hagree.left
    obtain ⟨host', hhost', hv⟩ := redact_of_scheme (hagree.scheme.symm.trans hs) hagree.right
    obtain rfl : host = host' :=
      Option.some.inj (hhost.symm.trans (hagree.host.trans hhost'))
    rw [hu, hv]

theorem bare_password_shown :
    AgreeButUserInfo "app:secret@rabbit/v".toList "app:hunter2@rabbit/v".toList ∧
      redactAmqpUri "app:secret@rabbit/v".toList ≠ redactAmqpUri "app:hunter2@rabbit/v".toList := by
  refine ⟨⟨?_, ?_, ?_, ?_⟩, ?_⟩ <;> decide +kernel

/-! ## The heartbeat -/

def heartbeatKey : Addr := ['h', 'e', 'a', 'r', 't', 'b', 'e', 'a', 't', '=']

def setsHeartbeat (param : Addr) : Bool := heartbeatKey.isPrefixOf param

def heartbeat : Addr := heartbeatKey ++ ['5']

def separator (addr : Addr) : Char := if '?' ∈ addr then '&' else '?'

def detected (addr : Addr) : Bool :=
  (addr.splitOn '?')[1]?.any fun q => (q.splitOn '&').any setsHeartbeat

def withHeartbeat (addr : Addr) : Addr :=
  if detected addr then addr else addr ++ separator addr :: heartbeat

def params (addr : Addr) : List Addr :=
  match splitOnce ['?'] addr with
  | some (_, query) => query.splitOn '&'
  | none => []

/-- What sets the heartbeat is kept, and where nothing does, one parameter is added that does;
doing it again changes nothing. -/
structure AddedOnce (addr : Addr) : Prop where
  kept : (params addr).any setsHeartbeat = true → withHeartbeat addr = addr
  added : (params addr).any setsHeartbeat = false →
    withHeartbeat addr = addr ++ separator addr :: heartbeat ∧
      params (withHeartbeat addr) = params addr ++ [heartbeat] ∧
      (params (withHeartbeat addr)).countP setsHeartbeat = 1
  again : withHeartbeat (withHeartbeat addr) = withHeartbeat addr

variable {addr pre query : Addr}

theorem any_setsHeartbeat {q : Addr} : (q.splitOn '&').any setsHeartbeat = true ↔
    heartbeatKey <+: q ∨ ∃ z, z ++ '&' :: heartbeatKey <+: q := by
  have hd : '&' ∉ heartbeatKey := by decide
  rw [List.any_eq_true, ← exists_splitOn_prefix_iff hd]
  simp only [setsHeartbeat, List.isPrefixOf_iff_prefix]

theorem any_setsHeartbeat_of_prefix {q q' : Addr} (h : q <+: q')
    (hq : (q.splitOn '&').any setsHeartbeat = true) :
    (q'.splitOn '&').any setsHeartbeat = true := by
  rw [any_setsHeartbeat] at hq ⊢
  exact hq.imp (·.trans h) fun ⟨z, hz⟩ => ⟨z, hz.trans h⟩

theorem params_of_append (hpre : '?' ∉ pre) : params (pre ++ '?' :: query) = query.splitOn '&' := by
  simp [params, splitOnce_singleton_of_append hpre]

theorem params_of_notMem (h : '?' ∉ addr) : params addr = [] := by
  simp [params, splitOnce_singleton_of_notMem h]

theorem detected_of_append (hpre : '?' ∉ pre) : detected (pre ++ '?' :: query) =
    (query.splitOn '?').head?.any fun q => (q.splitOn '&').any setsHeartbeat := by
  unfold detected
  rw [List.splitOn_append_cons_self_of_not_mem hpre, List.getElem?_cons_succ,
    List.head?_eq_getElem?]

theorem detected_of_single (hpre : '?' ∉ pre) (hquery : '?' ∉ query) :
    detected (pre ++ '?' :: query) = (params (pre ++ '?' :: query)).any setsHeartbeat := by
  rw [detected_of_append hpre, params_of_append hpre, List.splitOn_eq_singleton hquery]
  rfl

theorem detected_of_double {between rest : Addr} (hpre : '?' ∉ pre) (hbetween : '?' ∉ between) :
    detected (pre ++ '?' :: (between ++ '?' :: rest)) =
      (between.splitOn '&').any setsHeartbeat := by
  rw [detected_of_append hpre, List.splitOn_append_cons_self_of_not_mem hbetween]
  rfl

theorem detected_of_notMem (h : '?' ∉ addr) : detected addr = false := by
  simp [detected, List.splitOn_eq_singleton h]

theorem setsHeartbeat_heartbeat : setsHeartbeat heartbeat = true := by decide

theorem params_of_detected (h : detected addr = true) : (params addr).any setsHeartbeat = true := by
  by_cases hmem : '?' ∈ addr
  · obtain ⟨pre, query, rfl, hpre⟩ := List.eq_append_cons_of_mem hmem
    by_cases hsecond : '?' ∈ query
    · obtain ⟨between, rest, rfl, hbetween⟩ := List.eq_append_cons_of_mem hsecond
      rw [detected_of_double hpre hbetween] at h
      rw [params_of_append hpre]
      exact any_setsHeartbeat_of_prefix (List.prefix_append _ _) h
    · rwa [detected_of_single hpre hsecond] at h
  · rw [detected_of_notMem hmem] at h
    cases h

theorem params_append (addr : Addr) :
    params (addr ++ separator addr :: heartbeat) = params addr ++ [heartbeat] := by
  have hsingle : heartbeat.splitOn '&' = [heartbeat] := List.splitOn_eq_singleton (by decide)
  unfold separator
  by_cases hmem : '?' ∈ addr
  · rw [if_pos hmem]
    obtain ⟨pre, query, rfl, hpre⟩ := List.eq_append_cons_of_mem hmem
    rw [List.append_assoc, List.cons_append, params_of_append hpre, params_of_append hpre,
      List.splitOn_append_cons_self, hsingle]
  · rw [if_neg hmem, params_of_append hmem, params_of_notMem hmem, hsingle]
    rfl

theorem detected_append (h : addr.count '?' ≤ 1) :
    detected (addr ++ separator addr :: heartbeat) = true := by
  have hparams : (params (addr ++ separator addr :: heartbeat)).any setsHeartbeat = true := by
    rw [params_append, List.any_append]
    simp [setsHeartbeat_heartbeat]
  have hnone : '?' ∉ heartbeat := by decide
  by_cases hmem : '?' ∈ addr
  · have hsep : separator addr = '&' := if_pos hmem
    rw [hsep] at hparams ⊢
    obtain ⟨pre, query, rfl, hpre⟩ := List.eq_append_cons_of_mem hmem
    have hquery : '?' ∉ query := by
      rw [List.count_append, List.count_cons_self] at h
      exact List.count_eq_zero.mp (by omega)
    rw [List.append_assoc, List.cons_append] at hparams ⊢
    rwa [detected_of_single hpre (by simp [hquery, hnone])]
  · have hsep : separator addr = '?' := if_neg hmem
    rw [hsep] at hparams ⊢
    rwa [detected_of_single hmem hnone]

theorem detected_append_of_double (h : 1 < addr.count '?') (w : Addr) :
    detected (addr ++ w) = detected addr := by
  have hmem : '?' ∈ addr := List.count_pos_iff.mp (by omega)
  obtain ⟨pre, query, rfl, hpre⟩ := List.eq_append_cons_of_mem hmem
  rw [List.count_append, List.count_cons_self, List.count_eq_zero.mpr hpre] at h
  have hsecond : '?' ∈ query := List.count_pos_iff.mp (by omega)
  obtain ⟨between, rest, rfl, hbetween⟩ := List.eq_append_cons_of_mem hsecond
  have hassoc : pre ++ '?' :: (between ++ '?' :: rest) ++ w =
      pre ++ '?' :: (between ++ '?' :: (rest ++ w)) := by simp
  rw [hassoc, detected_of_double hpre hbetween, detected_of_double hpre hbetween]

theorem addedOnce_of_detected (h : detected addr = true) : AddedOnce addr := by
  have hkept : withHeartbeat addr = addr := if_pos h
  refine ⟨fun _ => hkept, fun hnone => ?_, congrArg withHeartbeat hkept⟩
  rw [params_of_detected h] at hnone
  cases hnone

theorem addedOnce_of_count (h : detected addr = false) (hcount : addr.count '?' ≤ 1) :
    AddedOnce addr := by
  have hadded : withHeartbeat addr = addr ++ separator addr :: heartbeat := by
    simp [withHeartbeat, h]
  refine ⟨fun hany => ?_, fun hnone => ⟨hadded, ?_, ?_⟩, ?_⟩
  · by_cases hmem : '?' ∈ addr
    · obtain ⟨pre, query, rfl, hpre⟩ := List.eq_append_cons_of_mem hmem
      have hquery : '?' ∉ query := by
        rw [List.count_append, List.count_cons_self] at hcount
        exact List.count_eq_zero.mp (by omega)
      rw [detected_of_single hpre hquery, hany] at h
      cases h
    · rw [params_of_notMem hmem] at hany
      cases hany
  · rw [hadded, params_append]
  · have hzero : (params addr).countP setsHeartbeat = 0 := by
      rw [List.countP_eq_zero]
      simpa using hnone
    rw [hadded, params_append, List.countP_append, hzero]
    simp [setsHeartbeat_heartbeat]
  · rw [hadded, withHeartbeat, if_pos (detected_append hcount)]

/-- The heartbeat is added once if and only if the address has one `?` at most, or a
parameter between its first two sets the heartbeat. -/
theorem heartbeat_added_once_iff (addr : Addr) :
    AddedOnce addr ↔ addr.count '?' ≤ 1 ∨
      ∃ q ∈ (addr.splitOn '?')[1]?, ∃ param ∈ q.splitOn '&', setsHeartbeat param = true := by
  have hdetected : detected addr = true ↔
      ∃ q ∈ (addr.splitOn '?')[1]?, ∃ param ∈ q.splitOn '&', setsHeartbeat param = true := by
    simp [detected, Option.any_eq_true]
  rw [← hdetected]
  constructor
  · intro honce
    by_contra hnot
    obtain ⟨hcount, hnone⟩ := not_or.mp hnot
    have hnone : detected addr = false := Bool.eq_false_of_not_eq_true hnone
    have hadded : withHeartbeat addr = addr ++ separator addr :: heartbeat := by
      simp [withHeartbeat, hnone]
    -- the second time the heartbeat is added again
    have hstill : detected (withHeartbeat addr) = false := by
      rw [hadded, detected_append_of_double (by omega), hnone]
    have hagain : withHeartbeat addr ++ separator (withHeartbeat addr) :: heartbeat =
        withHeartbeat addr := by
      have h := honce.again
      rwa [withHeartbeat, if_neg (by simp [hstill])] at h
    simpa using congrArg List.length hagain
  · rintro (hcount | hany)
    · cases h : detected addr with
      | true => exact addedOnce_of_detected h
      | false => exact addedOnce_of_count h hcount
    · exact addedOnce_of_detected hany

theorem heartbeat_added_twice :
    (params "amqp://rabbit/v?name=a?b&heartbeat=10".toList).any setsHeartbeat = true ∧
      withHeartbeat "amqp://rabbit/v?name=a?b&heartbeat=10".toList =
        "amqp://rabbit/v?name=a?b&heartbeat=10&heartbeat=5".toList := by
  decide +kernel

end PaycloudHelper.AmqpAddress
