import Mathlib.Data.Bool.AllAny
import OpenPoly.Lib.Trim
import OpenPoly.Proofs.Numerals
import OpenPoly.Spec.Security

/-! The guard on cross-origin writes: which host and port a header names, and
which writes pass. -/

namespace OpenPoly

open Trim

theorem lowerChar_cases (c : Char) :
    (∃ k < 26, c = Char.ofNat (65 + k) ∧ lowerChar c = Char.ofNat (97 + k)) ∨
      c = Char.ofNat 0x212A ∧ lowerChar c = 'k' ∨ lowerChar c = c := by
  unfold lowerChar
  split_ifs with hupper hkelvin
  · have hlow : 65 ≤ c.toNat := UInt32.le_iff_toNat_le.mp hupper.1
    have hhigh : c.toNat ≤ 90 := UInt32.le_iff_toNat_le.mp hupper.2
    refine .inl ⟨c.toNat - 65, by omega, ?_, ?_⟩
    · rw [Nat.add_sub_cancel' hlow, Char.ofNat_toNat]
    · exact congrArg Char.ofNat (by omega)
  · exact .inr (.inl ⟨by rw [← hkelvin, Char.ofNat_toNat], rfl⟩)
  · exact .inr (.inr rfl)

theorem lowerChar_idem (c : Char) : lowerChar (lowerChar c) = lowerChar c := by
  have hlower : ∀ k < 26, lowerChar (Char.ofNat (97 + k)) = Char.ofNat (97 + k) := by decide
  rcases lowerChar_cases c with ⟨k, hk, -, heq⟩ | ⟨-, heq⟩ | heq
  · rw [heq, hlower k hk]
  · rw [heq]
    decide
  · rw [heq, heq]

theorem isPySpace_lowerChar (c : Char) : isPySpace (lowerChar c) = isPySpace c := by
  have hletters : ∀ k < 26, isPySpace (Char.ofNat (97 + k)) = isPySpace (Char.ofNat (65 + k)) := by decide
  rcases lowerChar_cases c with ⟨k, hk, hc, heq⟩ | ⟨hc, heq⟩ | heq
  · rw [heq, hletters k hk, hc]
  · rw [heq, hc]
    decide
  · rw [heq]

/-- A character that is no letter is lowered to only from itself. -/
theorem eq_of_lowerChar {c d : Char} (hd : ∀ k < 26, d ≠ Char.ofNat (97 + k)) (h : lowerChar c = d) :
    c = d := by
  rcases lowerChar_cases c with ⟨k, hk, -, heq⟩ | ⟨-, heq⟩ | heq
  · exact absurd (h.symm.trans heq) (hd k hk)
  · exact absurd (h.symm.trans heq) (hd 10 (by norm_num))
  · exact heq.symm.trans h

theorem lowered_stripped (raw : List Char) : lowered (stripped raw) = stripped (lowered raw) :=
  (trim_map isPySpace_lowerChar raw).symm

theorem stripped_stripped (raw : List Char) : stripped (stripped raw) = stripped raw :=
  trim_trim isPySpace raw

theorem lowered_lowered (raw : List Char) : lowered (lowered raw) = lowered raw := by
  unfold lowered
  rw [List.map_map]
  exact List.map_congr_left fun c _ => lowerChar_idem c

def cleaned (raw : List Char) : List Char := lowered (stripped raw)

theorem cleaned_cleaned (raw : List Char) : cleaned (cleaned raw) = cleaned raw := by
  unfold cleaned
  rw [← lowered_stripped, stripped_stripped, lowered_lowered]

def Bracketed (host : List Char) : Prop := ∃ body, host = '[' :: (body ++ [']']) ∧ ∀ c ∈ body, c ≠ ']'

/-- The hosts an authority can name: a name without colons, or a bracketed literal. -/
def HostForm (host : List Char) : Prop :=
  (host ≠ [] ∧ (∀ c ∈ host, c ≠ ':') ∧ host.head? ≠ some '[') ∨ Bracketed host

/-- The host and the port of an authority. One that ends in its host, in a bare colon,
or in something else behind a bracket names no port. -/
inductive Names : List Char → List Char → Option (List Char) → Prop
  | host {host : List Char} : HostForm host → Names host host none
  | colon {host : List Char} : HostForm host → Names (host ++ [':']) host none
  | port {host port : List Char} : HostForm host → port ≠ [] → (Bracketed host ∨ ∀ c ∈ port, c ≠ ':') →
      Names (host ++ ':' :: port) host (some port)
  | behind {host : List Char} {c : Char} {rest : List Char} : Bracketed host → c ≠ ':' →
      Names (host ++ c :: rest) host none

theorem hostname_bracketed {host rest : List Char} (h : Bracketed host)
    (hclean : cleaned (host ++ rest) = host ++ rest) : hostname (host ++ rest) = host := by
  obtain ⟨body, rfl, hbody⟩ := h
  have hopen : ∀ c ∈ '[' :: body, c ≠ ']' := by
    intro c hc
    rcases List.mem_cons.mp hc with rfl | hc
    · decide
    · exact hbody c hc
  have hclose : ('[' :: (body ++ ']' :: rest)).idxOf? ']' = some (body.length + 1) := idxOf?_cut hopen
  have hshape : '[' :: (body ++ [']']) ++ rest = '[' :: (body ++ ']' :: rest) := by simp
  rw [hshape] at hclean ⊢
  unfold hostname
  rw [show lowered (stripped ('[' :: (body ++ ']' :: rest))) = '[' :: (body ++ ']' :: rest) from hclean]
  simp only [hclose]
  rw [List.take_succ_cons, List.take_length_add_append]
  rfl

theorem hostname_unclosed {rest : List Char} (h : ∀ c ∈ rest, c ≠ ']')
    (hclean : cleaned ('[' :: rest) = '[' :: rest) : hostname ('[' :: rest) = '[' :: rest := by
  have hclose : ('[' :: rest).idxOf? ']' = none := by
    rw [List.idxOf?_eq_none_iff]
    intro hmem
    rcases List.mem_cons.mp hmem with hc | hc
    · cases hc
    · exact h _ hc rfl
  unfold hostname
  rw [show lowered (stripped ('[' :: rest)) = '[' :: rest from hclean]
  simp only [hclose]

theorem hostname_name {value : List Char} (hclean : cleaned value = value) (hne : value ≠ [])
    (hhead : value.head? ≠ some '[') :
    hostname value = if 1 < value.count ':' then value else value.takeWhile (· ≠ ':') := by
  unfold hostname
  rw [show lowered (stripped value) = value from hclean]
  match value, hne, hhead with
  | c :: cs, _, hhead =>
    have hc : c ≠ '[' := by simpa using hhead
    dsimp only
    split
    · rename_i heq
      cases heq
    · rename_i heq
      cases heq
      exact absurd rfl hc
    · rfl

def portBehind : List Char → Option (List Char)
  | ':' :: port => if port = [] then none else some port
  | _ => none

theorem splitAuthority_hosted {raw host rest : List Char} (hclean : cleaned raw = host ++ rest)
    (hne : host ≠ []) (hhost : hostname (host ++ rest) = host) :
    splitAuthority raw = some (host, portBehind rest) := by
  unfold splitAuthority portBehind
  rw [show lowered (stripped raw) = host ++ rest from hclean]
  dsimp only
  rw [hhost, if_neg hne, List.drop_left]
  split <;> simp_all

theorem HostForm.ne_nil {host : List Char} (h : HostForm host) : host ≠ [] := by
  rcases h with ⟨hne, -⟩ | ⟨body, rfl, -⟩
  · exact hne
  · exact List.cons_ne_nil _ _

theorem count_colons {l : List Char} (h : ∀ c ∈ l, c ≠ ':') : l.count ':' = 0 :=
  List.count_eq_zero.mpr fun hmem => h _ hmem rfl

theorem hostname_plain {host rest : List Char} (hne : host ≠ []) (hplain : ∀ c ∈ host, c ≠ ':')
    (hhead : host.head? ≠ some '[') (hrest : rest = [] ∨ ∃ port, rest = ':' :: port ∧ ∀ c ∈ port, c ≠ ':')
    (hclean : cleaned (host ++ rest) = host ++ rest) : hostname (host ++ rest) = host := by
  have hhead' : (host ++ rest).head? ≠ some '[' := by
    cases host with
    | nil => exact absurd rfl hne
    | cons c host => exact hhead
  rw [hostname_name hclean (by simp [hne]) hhead']
  rcases hrest with rfl | ⟨port, rfl, hport⟩
  · rw [List.append_nil, if_neg (by rw [count_colons hplain]; norm_num), takeWhile_uncut hplain]
  · have hcount : (host ++ ':' :: port).count ':' = 1 := by
      rw [List.count_append, count_colons hplain, List.count_cons_self, count_colons hport]
    rw [if_neg (by rw [hcount]; norm_num), takeWhile_cut hplain]

theorem splitAuthority_of_names {raw host : List Char} {port : Option (List Char)}
    (h : Names (cleaned raw) host port) : splitAuthority raw = some (host, port) := by
  have hidem := cleaned_cleaned raw
  generalize hvalue : cleaned raw = value at h hidem
  have hsplit : ∀ {rest : List Char}, value = host ++ rest → HostForm host →
      (Bracketed host ∨ rest = [] ∨ ∃ port, rest = ':' :: port ∧ ∀ c ∈ port, c ≠ ':') →
      splitAuthority raw = some (host, portBehind rest) := by
    rintro rest rfl hform hrest
    refine splitAuthority_hosted hvalue hform.ne_nil ?_
    rcases hform with ⟨hne, hplain, hhead⟩ | hbracketed
    · rcases hrest with ⟨body, rfl, -⟩ | hrest
      · exact absurd rfl hhead
      · exact hostname_plain hne hplain hhead hrest hidem
    · exact hostname_bracketed hbracketed hidem
  cases h with
  | host hform => exact hsplit (List.append_nil _).symm hform (.inr (.inl rfl))
  | colon hform => exact hsplit rfl hform (.inr (.inr ⟨[], rfl, by simp⟩))
  | port hform hne hport =>
    rw [hsplit rfl hform (hport.imp_right fun hport => .inr ⟨_, rfl, hport⟩)]
    simp [portBehind, hne]
  | @behind host c rest hbracketed hc =>
    rw [hsplit rfl (.inr hbracketed) (.inl hbracketed)]
    unfold portBehind
    split
    · rename_i heq
      cases heq
      exact absurd rfl hc
    · rfl

theorem names_behind {host rest : List Char} (hform : HostForm host)
    (hrest : Bracketed host ∨ rest = [] ∨ ∃ port, rest = ':' :: port ∧ ∀ c ∈ port, c ≠ ':') :
    Names (host ++ rest) host (portBehind rest) := by
  match rest, hrest with
  | [], _ =>
    rw [List.append_nil]
    exact .host hform
  | c :: rest, hrest =>
    by_cases hc : c = ':'
    · subst hc
      have hport : Bracketed host ∨ ∀ c ∈ rest, c ≠ ':' := by
        refine hrest.imp_right fun h => ?_
        obtain ⟨port, heq, hport⟩ := h.resolve_left (by simp)
        obtain rfl := (List.cons.inj heq).2
        exact hport
      by_cases hne : rest = []
      · subst hne
        exact .colon hform
      · simp only [portBehind, if_neg hne]
        exact .port hform hne hport
    · have hbracketed : Bracketed host := by
        rcases hrest with hb | heq | ⟨port, heq, -⟩
        · exact hb
        · cases heq
        · exact absurd (List.cons.inj heq).1 hc
      have hnone : portBehind (c :: rest) = none := by
        unfold portBehind
        split
        · rename_i heq
          cases heq
          exact absurd rfl hc
        · rfl
      rw [hnone]
      exact .behind hbracketed hc

theorem splitAuthority_nil {raw : List Char} (h : hostname (cleaned raw) = []) : splitAuthority raw = none := by
  unfold splitAuthority
  exact if_pos h

theorem names_of_splitAuthority {raw host : List Char} {port : Option (List Char)} (hform : HostForm host)
    (h : splitAuthority raw = some (host, port)) : Names (cleaned raw) host port := by
  have hidem := cleaned_cleaned raw
  have hsome : hostname (cleaned raw) ≠ [] := fun hnil => by
    rw [splitAuthority_nil hnil] at h
    cases h
  generalize hvalue : cleaned raw = value at hidem hsome ⊢
  have hbehind : ∀ {h' rest : List Char}, value = h' ++ rest → h' ≠ [] → hostname (h' ++ rest) = h' →
      host = h' ∧ port = portBehind rest := by
    rintro h' rest rfl hne hhost
    have hsplit := (splitAuthority_hosted hvalue hne hhost).symm.trans h
    have hpair := Prod.mk.inj (Option.some.inj hsplit)
    exact ⟨hpair.1.symm, hpair.2.symm⟩
  have hwhole : hostname value = value → host = value ∧ port = none := fun hhost =>
    hbehind (List.append_nil value).symm (hhost ▸ hsome) (by rw [List.append_nil]; exact hhost)
  by_cases hhead : value.head? = some '['
  · obtain ⟨inner, rfl⟩ : ∃ inner, value = '[' :: inner := by
      cases value with
      | nil => cases hhead
      | cons c inner => exact ⟨inner, by rw [Option.some.inj hhead]⟩
    rcases cut_cases ']' inner with ⟨-, hnone⟩ | ⟨rest, hrest⟩
    · -- nothing closes the bracket, and no host looks like that
      obtain ⟨rfl, -⟩ := hwhole (hostname_unclosed hnone hidem)
      rcases hform with ⟨-, -, hopen⟩ | ⟨body, hbody, -⟩
      · exact absurd rfl hopen
      · obtain rfl := (List.cons.inj hbody).2
        exact absurd rfl (hnone ']' (by simp))
    · have hbody : ∀ c ∈ inner.takeWhile (· ≠ ']'), c ≠ ']' := fun c hc => by
        simpa using List.mem_takeWhile_imp hc
      have hbracketed : Bracketed ('[' :: (inner.takeWhile (· ≠ ']') ++ [']'])) := ⟨_, rfl, hbody⟩
      have hvalue' : '[' :: inner = '[' :: (inner.takeWhile (· ≠ ']') ++ [']']) ++ rest := by
        rw [List.cons_append, List.append_assoc]
        exact congrArg _ hrest
      obtain ⟨rfl, rfl⟩ := hbehind hvalue' (List.cons_ne_nil _ _)
        (hostname_bracketed hbracketed (hvalue' ▸ hidem))
      rw [hvalue']
      exact names_behind (.inr hbracketed) (.inl hbracketed)
  · have hne : value ≠ [] := by
      rintro rfl
      exact hsome rfl
    have hname := hostname_name hidem hne hhead
    by_cases hcount : 1 < value.count ':'
    · -- two colons outside brackets: all of it is a host, and not one of that form
      rw [if_pos hcount] at hname
      obtain ⟨rfl, -⟩ := hwhole hname
      rcases hform with ⟨-, hplain, -⟩ | ⟨body, rfl, -⟩
      · rw [count_colons hplain] at hcount
        omega
      · exact absurd rfl hhead
    · rw [if_neg hcount] at hname
      rcases cut_cases ':' value with ⟨huncut, -⟩ | ⟨rest, hrest⟩
      · obtain ⟨rfl, rfl⟩ := hwhole (hname.trans huncut)
        exact .host hform
      · have hplain : ∀ c ∈ rest, c ≠ ':' := by
          rintro c hc rfl
          have hpos := List.count_pos_iff.mpr hc
          rw [hrest, List.count_append, List.count_cons_self] at hcount
          omega
        obtain ⟨rfl, rfl⟩ := hbehind hrest (hname ▸ hsome) (by rw [← hrest]; exact hname)
        have hnames := names_behind hform (.inr (.inr ⟨rest, rfl, hplain⟩))
        rwa [← hrest] at hnames

/-- An origin as a browser serializes it. -/
structure WebOrigin where
  scheme : List Char
  host : List Char
  port : Option (List Char)
  scheme_plain : ∀ c ∈ scheme, isPySpace c = false ∧ c ≠ ':'
  host_form : HostForm host
  host_plain : ∀ c ∈ host, isPySpace c = false ∧ c ≠ '/'
  port_digits : ∀ p ∈ port, p ≠ [] ∧ ∀ c ∈ p, c.isDigit = true

/-- `host[:port]`. -/
def WebOrigin.authority (o : WebOrigin) : List Char :=
  match o.port with
  | none => o.host
  | some port => o.host ++ ':' :: port

/-- `scheme://host[:port]`. -/
def WebOrigin.text (o : WebOrigin) : List Char := o.scheme ++ "://".toList ++ o.authority

def WebOrigin.effectivePort (o : WebOrigin) : Option (List Char) := o.port.or (defaultPort (lowered o.scheme))

theorem digit_plain {c : Char} (h : c.isDigit = true) : isPySpace c = false ∧ c ≠ '/' ∧ c ≠ ':' := by
  have hbounds : 48 ≤ c.toNat ∧ c.toNat ≤ 57 := by
    simp only [Char.isDigit, Bool.and_eq_true, decide_eq_true_eq, ge_iff_le, UInt32.le_iff_toNat_le] at h
    exact h
  refine ⟨?_, ?_, ?_⟩
  · simp only [isPySpace, Bool.or_eq_false_iff, Bool.and_eq_false_iff, decide_eq_false_iff_not,
      beq_eq_false_iff_ne]
    omega
  · rintro rfl
    exact absurd hbounds.1 (by decide)
  · rintro rfl
    exact absurd hbounds.2 (by decide)

theorem HostForm.lowered {host : List Char} (h : HostForm host) : HostForm (lowered host) := by
  have hsep : ∀ {d : Char} {cs : List Char}, (∀ k < 26, d ≠ Char.ofNat (97 + k)) → (∀ c ∈ cs, c ≠ d) →
      ∀ c ∈ OpenPoly.lowered cs, c ≠ d := by
    rintro d cs hd hcs c hc rfl
    obtain ⟨c', hc', heq⟩ := List.mem_map.mp hc
    exact hcs c' hc' (eq_of_lowerChar hd heq)
  rcases h with ⟨hne, hplain, hhead⟩ | ⟨body, rfl, hbody⟩
  · refine .inl ⟨by simpa [OpenPoly.lowered] using hne, hsep (by decide) hplain, fun hopen => hhead ?_⟩
    obtain ⟨c, hc, heq⟩ := Option.map_eq_some_iff.mp (List.head?_map.symm.trans hopen)
    rw [hc, eq_of_lowerChar (by decide) heq]
  · refine .inr ⟨OpenPoly.lowered body, ?_, hsep (by decide) hbody⟩
    simp only [OpenPoly.lowered, List.map_cons, List.map_append, List.map_nil]
    rfl

theorem WebOrigin.authority_plain (o : WebOrigin) : ∀ c ∈ o.authority, isPySpace c = false ∧ c ≠ '/' := by
  intro c hc
  unfold WebOrigin.authority at hc
  split at hc
  · exact o.host_plain c hc
  · rename_i port hport
    rcases List.mem_append.mp hc with hc | hc
    · exact o.host_plain c hc
    · rcases List.mem_cons.mp hc with rfl | hc
      · decide
      · have hdigit := digit_plain ((o.port_digits port hport).2 c hc)
        exact ⟨hdigit.1, hdigit.2.1⟩

theorem partitionScheme_text {scheme rest : List Char} (h : ∀ c ∈ scheme, c ≠ ':') :
    partitionScheme (scheme ++ "://".toList ++ rest) = some (scheme, rest) := by
  induction scheme with
  | nil => rfl
  | cons c scheme ih =>
    have hc : c ≠ ':' := h c List.mem_cons_self
    have hnot : "://".toList.isPrefixOf (c :: (scheme ++ "://".toList ++ rest)) = false := by
      simp [List.isPrefixOf, Ne.symm hc]
    simp only [List.cons_append, partitionScheme]
    rw [if_neg (by rw [hnot]; exact Bool.false_ne_true), ih fun d hd => h d (List.mem_cons_of_mem c hd)]
    rfl

/-- A serialized authority names its host and its port. -/
theorem names_authority (o : WebOrigin) : Names (cleaned o.authority) (lowered o.host) o.port := by
  have hstrip : stripped o.authority = o.authority := trim_of_none fun c hc => (o.authority_plain c hc).1
  unfold cleaned
  rw [hstrip]
  unfold WebOrigin.authority
  cases hport : o.port with
  | none => exact .host o.host_form.lowered
  | some port =>
    obtain ⟨hne, hdigits⟩ := o.port_digits port hport
    have hsame : lowered port = port := by
      unfold lowered
      exact List.map_congr_left (fun c hc => lowerChar_numeral (.inl (hdigits c hc))) |>.trans (List.map_id port)
    have hshape : lowered (o.host ++ ':' :: port) = lowered o.host ++ ':' :: port := by
      conv_rhs => rw [← hsame]
      simp only [lowered, List.map_append, List.map_cons]
      rfl
    dsimp only
    rw [hshape]
    exact .port o.host_form.lowered hne (.inr fun c hc => (digit_plain (hdigits c hc)).2.2)

theorem originAuthority_text (o : WebOrigin) :
    originAuthority o.text = some (lowered o.host, o.effectivePort) := by
  have hplain : ∀ c ∈ o.text, isPySpace c = false := by
    intro c hc
    simp only [WebOrigin.text, List.mem_append] at hc
    rcases hc with (hc | hc) | hc
    · exact (o.scheme_plain c hc).1
    · have hmark : ∀ c ∈ "://".toList, isPySpace c = false := List.all_iff_forall_prop.mp (by decide)
      exact hmark c hc
    · exact (o.authority_plain c hc).1
  have hstrip : stripped o.text = o.text := trim_of_none hplain
  have hscheme : stripped o.scheme = o.scheme := trim_of_none fun c hc => (o.scheme_plain c hc).1
  have hcolon : ':' ∈ o.text := by simp [WebOrigin.text]
  have hnamed : ¬ (o.text = [] ∨ lowered o.text = "null".toList) := by
    rintro (hnil | hnull)
    · rw [hnil] at hcolon
      cases hcolon
    · have hmem : lowerChar ':' ∈ lowered o.text := List.mem_map_of_mem hcolon
      rw [hnull] at hmem
      revert hmem
      decide
  unfold originAuthority
  dsimp only
  rw [hstrip, if_neg hnamed]
  unfold WebOrigin.text
  rw [partitionScheme_text fun c hc => (o.scheme_plain c hc).2]
  dsimp only
  rw [takeWhile_uncut fun c hc => (o.authority_plain c hc).2, splitAuthority_of_names (names_authority o),
    hscheme]
  rfl

def GuardHeaders.Labelled (h : GuardHeaders) (label : List Char) : Prop :=
  ∃ site, h.secFetchSite = some site ∧ cleaned site = label

def GuardHeaders.Vouched (h : GuardHeaders) : Prop :=
  h.Labelled "same-origin".toList ∨ h.Labelled "none".toList

/-- The origin's port is that of a Host, or either default where the Host names none. -/
def WebOrigin.OnPort (o : WebOrigin) : Option (List Char) → Prop
  | some port => o.effectivePort = some port
  | none => o.effectivePort = some "80".toList ∨ o.effectivePort = some "443".toList

/-- The Host names the origin's host, and its port; or neither names a port, nor has
the origin's scheme one. -/
def WebOrigin.ServedAs (o : WebOrigin) (host : List Char) : Prop :=
  ∃ port, Names (cleaned host) (lowered o.host) port ∧
    (o.OnPort port ∨ port = none ∧ o.effectivePort = none)

/-- The operator lists the host, with or without the port, or everything. -/
def WebOrigin.Allowlisted (o : WebOrigin) (allowedHosts : List Char) : Prop :=
  "*".toList ∈ allowedEntries allowedHosts ∨ lowered o.host ∈ allowedEntries allowedHosts ∨
    ∃ port, o.effectivePort = some port ∧ lowered o.host ++ ':' :: port ∈ allowedEntries allowedHosts

theorem sameAuthority_iff (o : WebOrigin) (host : List Char) :
    sameAuthority (lowered o.host, o.effectivePort) host = true ↔ o.ServedAs host := by
  unfold sameAuthority WebOrigin.ServedAs
  cases hsplit : splitAuthority host with
  | none =>
    refine iff_of_false Bool.false_ne_true ?_
    rintro ⟨port, hnames, -⟩
    rw [splitAuthority_of_names hnames] at hsplit
    cases hsplit
  | some parts =>
    obtain ⟨named, port⟩ := parts
    dsimp only
    have hnames : ∀ {port' : Option (List Char)}, Names (cleaned host) (lowered o.host) port' →
        lowered o.host = named ∧ port' = port := by
      intro port' h
      have hpair := Prod.mk.inj (Option.some.inj ((splitAuthority_of_names h).symm.trans hsplit))
      exact ⟨hpair.1, hpair.2⟩
    by_cases hhost : lowered o.host = named
    · rw [if_neg (not_not.mpr hhost)]
      have hport : (∃ port', Names (cleaned host) (lowered o.host) port' ∧
          (o.OnPort port' ∨ port' = none ∧ o.effectivePort = none)) ↔
          o.OnPort port ∨ port = none ∧ o.effectivePort = none := by
        constructor
        · rintro ⟨port', h, hon⟩
          obtain ⟨-, rfl⟩ := hnames h
          exact hon
        · exact fun hon => ⟨port, names_of_splitAuthority o.host_form.lowered (hhost ▸ hsplit), hon⟩
      rw [hport]
      unfold WebOrigin.OnPort
      cases port with
      | some port => simp
      | none =>
        cases o.effectivePort with
        | none => simp
        | some p => simp [impliedPorts]
    · rw [if_pos hhost]
      exact iff_of_false Bool.false_ne_true fun ⟨port', h, _⟩ => hhost (hnames h).1

theorem originAllowlisted_iff (o : WebOrigin) (allowedHosts : List Char) :
    originAllowlisted allowedHosts (lowered o.host, o.effectivePort) = true ↔ o.Allowlisted allowedHosts := by
  unfold originAllowlisted WebOrigin.Allowlisted
  rw [decide_eq_true_iff, Option.any_eq_true]
  simp only [decide_eq_true_iff]

/-- A write that no label settles is decided by its origin. -/
theorem refusal_of_unsettled {allowedHosts : List Char} {method : String} {h : GuardHeaders}
    (hm : pyUpper method ∈ mutatingMethods) (hcross : ¬ h.Labelled secFetchSiteCross) (hvouched : ¬ h.Vouched) :
    crossOriginWriteRefusal allowedHosts method h = h.origin.bind fun origin =>
      if (originAuthority origin).any fun parts =>
          sameAuthority parts (h.host.getD []) || originAllowlisted allowedHosts parts then none
      else some (.foreignOrigin ((stripped origin).take 100) ((h.host.getD []).take 100)) := by
  have hlabel : ∀ {label : List Char},
      (h.secFetchSite.map fun site => lowered (stripped site)) = some label ↔ h.Labelled label := by
    intro label
    exact Option.map_eq_some_iff
  have hself : ¬ ((h.secFetchSite.map fun site => lowered (stripped site)).any
      fun value => value ∈ secFetchSiteSelf) = true := by
    rw [Option.any_eq_true]
    rintro ⟨value, hvalue, hmem⟩
    have hlabelled := hlabel.mp hvalue
    simp only [secFetchSiteSelf, decide_eq_true_iff, List.mem_cons, List.not_mem_nil, or_false] at hmem
    rcases hmem with rfl | rfl
    · exact hvouched (.inl hlabelled)
    · exact hvouched (.inr hlabelled)
  unfold crossOriginWriteRefusal
  dsimp only
  rw [if_neg (not_not.mpr hm), if_neg (mt hlabel.mp hcross), if_neg hself]
  cases h.origin <;> rfl

/-- The guard, for every mutating method and all headers: a write labelled cross-site is
refused; one no label vouches for passes on its origin exactly where the Host names
the same authority or the operator lists it, and never on `null`; and one with neither
header passes. -/
theorem cross_origin_writes (allowedHosts : List Char) {method : String}
    (hm : pyUpper method ∈ mutatingMethods) (h : GuardHeaders) :
    (h.Labelled secFetchSiteCross →
      crossOriginWriteRefusal allowedHosts method h = some .crossSite) ∧
    (¬ h.Labelled secFetchSiteCross → ¬ h.Vouched → ∀ o : WebOrigin, h.origin = some o.text →
      (crossOriginWriteRefusal allowedHosts method h = none ↔
        o.ServedAs (h.host.getD []) ∨ o.Allowlisted allowedHosts)) ∧
    (¬ h.Labelled secFetchSiteCross → ¬ h.Vouched → h.origin = some "null".toList →
      crossOriginWriteRefusal allowedHosts method h ≠ none) ∧
    (h.secFetchSite = none → h.origin = none → crossOriginWriteRefusal allowedHosts method h = none) := by
  refine ⟨?_, ?_, ?_, ?_⟩
  · rintro ⟨site, hsite, hlabel⟩
    have hlabel : lowered (stripped site) = secFetchSiteCross := hlabel
    unfold crossOriginWriteRefusal
    rw [if_neg (not_not.mpr hm), hsite]
    simp [hlabel]
  · intro hcross hvouched o ho
    rw [refusal_of_unsettled hm hcross hvouched, ho, Option.bind_some, originAuthority_text, Option.any_some]
    rw [← sameAuthority_iff, ← originAllowlisted_iff, ← Bool.or_eq_true]
    split_ifs with hpass
    · simp [hpass]
    · simp [hpass]
  · intro hcross hvouched ho
    have hnull : originAuthority "null".toList = none := by decide
    rw [refusal_of_unsettled hm hcross hvouched, ho, Option.bind_some, hnull]
    simp
  · intro hsite ho
    have hunlabelled : ∀ label, ¬ h.Labelled label := by
      rintro label ⟨site, hs, -⟩
      rw [hsite] at hs
      cases hs
    rw [refusal_of_unsettled hm (hunlabelled _) fun hv => hv.elim (hunlabelled _) (hunlabelled _), ho]
    rfl

def devOrigin : WebOrigin where
  scheme := "http".toList
  host := "[::1]".toList
  port := some "3000".toList
  scheme_plain := List.all_iff_forall_prop.mp (by decide)
  host_form := .inr ⟨"::1".toList, rfl, List.all_iff_forall_prop.mp (by decide)⟩
  host_plain := List.all_iff_forall_prop.mp (by decide)
  port_digits := by
    rintro p ⟨⟩
    exact ⟨by decide, List.all_iff_forall_prop.mp (by decide)⟩

/-- `http://[::1]:3000` drives the backend on `[::1]:8000` only where it is listed. -/
theorem cross_origin_writes_sample :
    crossOriginWriteRefusal [] "POST" ⟨some "same-site".toList, some devOrigin.text, some "[::1]:8000".toList⟩ ≠
        none ∧
      ¬ devOrigin.ServedAs "[::1]:8000".toList ∧
      crossOriginWriteRefusal "[::1]:3000".toList "POST"
        ⟨some "same-site".toList, some devOrigin.text, some "[::1]:8000".toList⟩ = none := by
  have hlabel : ∀ label, (⟨some "same-site".toList, some devOrigin.text, some "[::1]:8000".toList⟩ :
      GuardHeaders).Labelled label → label = "same-site".toList := by
    rintro label ⟨site, hsite, rfl⟩
    obtain rfl := Option.some.inj hsite
    decide
  have hcross : ¬ (⟨some "same-site".toList, some devOrigin.text, some "[::1]:8000".toList⟩ :
      GuardHeaders).Labelled secFetchSiteCross := fun h => absurd (hlabel _ h) (by decide)
  have hvouched : ¬ (⟨some "same-site".toList, some devOrigin.text, some "[::1]:8000".toList⟩ :
      GuardHeaders).Vouched := by
    rintro (h | h) <;> exact absurd (hlabel _ h) (by decide)
  have hrefused : crossOriginWriteRefusal [] "POST"
      ⟨some "same-site".toList, some devOrigin.text, some "[::1]:8000".toList⟩ ≠ none := by decide
  have hiff := (cross_origin_writes [] (by decide : pyUpper "POST" ∈ mutatingMethods) _).2.1
    hcross hvouched devOrigin rfl
  exact ⟨hrefused, fun hserved => hrefused (hiff.mpr (.inl hserved)), by decide⟩

/-- A page of an app's own scheme, which has no default port. -/
def appOrigin : WebOrigin where
  scheme := "tauri".toList
  host := "localhost".toList
  port := none
  scheme_plain := List.all_iff_forall_prop.mp (by decide)
  host_form := .inl ⟨by decide, List.all_iff_forall_prop.mp (by decide), by decide⟩
  host_plain := List.all_iff_forall_prop.mp (by decide)
  port_digits := nofun

/-- An origin whose scheme has no default port and that names none passes a Host that
names none; and `null` is refused though everything is listed. -/
theorem portless_scheme_passes :
    (crossOriginWriteRefusal [] "POST" ⟨none, some appOrigin.text, some "localhost".toList⟩ = none ∧
      ¬ ((∃ port, Names (cleaned "localhost".toList) (lowered appOrigin.host) port ∧ appOrigin.OnPort port) ∨
        appOrigin.Allowlisted [])) ∧
    crossOriginWriteRefusal "*".toList "POST" ⟨none, some "null".toList, some "localhost".toList⟩ ≠ none ∧
      "*".toList ∈ allowedEntries "*".toList := by
  refine ⟨⟨by decide, ?_⟩, by decide, by decide⟩
  have hport : appOrigin.effectivePort = none := by decide
  rintro (⟨port, -, hon⟩ | hlisted)
  · cases port with
    | none => rcases hon with hon | hon <;> exact Option.some_ne_none _ (hon.symm.trans hport)
    | some port => exact Option.some_ne_none _ (hon.symm.trans hport)
  · rcases hlisted with hall | hhost | ⟨port, hp, -⟩
    · revert hall
      decide
    · revert hhost
      decide
    · exact Option.some_ne_none _ (hp.symm.trans hport)

end OpenPoly
