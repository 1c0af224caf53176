import CodeAtlas.Proofs.Text.Blank
import CodeAtlas.Proofs.Text.Numeral
import CodeAtlas.Remote.Endpoint

/-!
# Addresses that are read back

An address is written from a scheme, credentials, a place and a suffix, with marks between them that
may also stand in the other parts. Each mark is looked for from the end at which it cannot be part of
anything else, so the parts are found again. An address is refused just where its place names no host
or a port that is no number of a port.
-/

namespace CodeAtlas.Remote.Endpoint

open Text (AreBlank IsTrimmed)

/-! ## Marks -/

section Marks

variable {mark : Char} {text front behind : List Char}

theorem cutFirst_eq_none_iff : cutFirst mark text = none ↔ mark ∉ text := by
  simp [cutFirst]

theorem cutFirst_append (h : mark ∉ front) (behind : List Char) :
    cutFirst mark (front ++ mark :: behind) = some (front, behind) := by
  have hpass : ∀ char ∈ front, decide (char ≠ mark) = true := by
    intro char hm
    rw [decide_eq_true_iff]
    rintro rfl
    exact h hm
  have htake : (front ++ mark :: behind).takeWhile (· ≠ mark) = front := by
    rw [List.takeWhile_append_of_pos hpass]
    simp
  have hdrop : (front ++ mark :: behind).dropWhile (· ≠ mark) = mark :: behind := by
    rw [List.dropWhile_append_of_pos hpass]
    simp
  rw [cutFirst, if_pos (by simp), htake, hdrop]
  rfl

theorem cutLast_eq_none_iff : cutLast mark text = none ↔ mark ∉ text := by
  rw [cutLast, Option.map_eq_none_iff, cutFirst_eq_none_iff, List.mem_reverse]

theorem cutLast_append (h : mark ∉ behind) (front : List Char) :
    cutLast mark (front ++ mark :: behind) = some (front, behind) := by
  have hreverse : (front ++ mark :: behind).reverse = behind.reverse ++ mark :: front.reverse := by
    simp
  rw [cutLast, hreverse, cutFirst_append (by simpa using h)]
  simp

theorem exists_append_of_mem (h : mark ∈ text) :
    ∃ front behind, text = front ++ mark :: behind ∧ mark ∉ behind := by
  obtain ⟨behind, front, he, hn⟩ := List.eq_append_cons_of_mem (List.mem_reverse.2 h)
  refine ⟨front.reverse, behind.reverse, ?_, by simpa using hn⟩
  rw [← List.reverse_reverse text, he]
  simp

end Marks

/-! ## Pieces -/

/-- The pieces of an address between its blanks, none of which holds a mark that ends it. -/
structure Pieces where
  scheme : Option String
  credentials : Option (List Char)
  place : List Char
  suffix : Option (List Char)
  scheme_mem : ∀ sign ∈ scheme, sign ∈ schemes
  /-- Without a scheme nothing reads as one. -/
  bare : scheme = none → ∀ sign ∈ schemes, ¬ sign.toList <+:
    (credentials.map (· ++ ['@'])).getD [] ++ place ++ (suffix.map ('/' :: ·)).getD []
  slash_notMem_credentials : ∀ text ∈ credentials, '/' ∉ text
  slash_notMem_place : '/' ∉ place
  at_notMem_place : '@' ∉ place

namespace Pieces

variable (pieces : Pieces)

/-- Credentials with the mark behind them, and the place. -/
def authority : List Char := (pieces.credentials.map (· ++ ['@'])).getD [] ++ pieces.place

def rest : List Char := pieces.authority ++ (pieces.suffix.map ('/' :: ·)).getD []

def chars : List Char := (pieces.scheme.map String.toList).getD [] ++ pieces.rest

theorem slash_notMem_authority : '/' ∉ pieces.authority := by
  have hcredentials := pieces.slash_notMem_credentials
  unfold authority
  cases hc : pieces.credentials <;> simp_all [pieces.slash_notMem_place]

theorem withoutScheme_chars : withoutScheme pieces.chars = pieces.rest := by
  cases hscheme : pieces.scheme with
  | none =>
      have hchars : pieces.chars = pieces.rest := by simp [chars, hscheme]
      have hfind : schemes.find? (fun sign => sign.toList.isPrefixOf pieces.rest) = none := by
        refine List.find?_eq_none.2 fun sign hm hprefix => ?_
        exact pieces.bare hscheme sign hm (List.isPrefixOf_iff_prefix.1 hprefix)
      rw [withoutScheme, hchars, hfind]
  | some sign =>
      have hchars : pieces.chars = sign.toList ++ pieces.rest := by simp [chars, hscheme]
      have hfind : schemes.find? (fun other => other.toList.isPrefixOf pieces.chars) =
          some sign := by
        rw [hchars]
        -- No scheme begins with another one.
        rcases List.mem_pair.1 (pieces.scheme_mem sign hscheme) with rfl | rfl
        · exact List.find?_cons_of_pos (List.isPrefixOf_iff_prefix.2 (List.prefix_append _ _))
        · rw [schemes, List.find?_cons_of_neg (by rw [Bool.not_eq_true]; rfl)]
          exact List.find?_cons_of_pos (List.isPrefixOf_iff_prefix.2 (List.prefix_append _ _))
      rw [withoutScheme, hfind, hchars]
      exact List.drop_left' String.length_toList

theorem cutFirst_rest :
    ((cutFirst '/' pieces.rest).map Prod.fst).getD pieces.rest = pieces.authority := by
  have hslash := pieces.slash_notMem_authority
  unfold rest
  cases pieces.suffix with
  | none => simp [cutFirst_eq_none_iff.2 hslash]
  | some suffix => simp [cutFirst_append hslash]

theorem cutLast_authority :
    cutLast '@' pieces.authority = pieces.credentials.map fun text => (text, pieces.place) := by
  have hat := pieces.at_notMem_place
  unfold authority
  cases pieces.credentials with
  | none => exact cutLast_eq_none_iff.2 hat
  | some credentials => simpa using cutLast_append hat credentials

end Pieces

/-- An address consists of pieces between blanks. -/
def ConsistsOf (address : String) (pieces : Pieces) : Prop :=
  Text.trimChars address.toList = pieces.chars

theorem exists_suffix (text : List Char) : ∃ front suffix,
    text = front ++ (Option.map ('/' :: ·) suffix).getD [] ∧ '/' ∉ front := by
  by_cases h : '/' ∈ text
  · obtain ⟨front, behind, he, hn⟩ := List.eq_append_cons_of_mem h
    exact ⟨front, some behind, he, hn⟩
  · exact ⟨text, none, (List.append_nil text).symm, h⟩

theorem exists_credentials (text : List Char) : ∃ credentials place,
    text = (Option.map (· ++ ['@']) credentials).getD [] ++ place ∧ '@' ∉ place := by
  by_cases h : '@' ∈ text
  · obtain ⟨front, behind, he, hn⟩ := exists_append_of_mem h
    exact ⟨some front, behind, by simp [he], hn⟩
  · exact ⟨none, text, rfl, h⟩

theorem exists_scheme (text : List Char) : ∃ (scheme : Option String) (rest : List Char),
    text = (scheme.map String.toList).getD [] ++ rest ∧ (∀ sign ∈ scheme, sign ∈ schemes) ∧
      (scheme = none → ∀ sign ∈ schemes, ¬ sign.toList <+: rest) := by
  by_cases h : ∃ sign ∈ schemes, sign.toList <+: text
  · obtain ⟨sign, hm, rest, rfl⟩ := h
    exact ⟨some sign, rest, rfl, by simpa using hm, by simp⟩
  · exact ⟨none, text, rfl, by simp, fun _ sign hm hp => h ⟨sign, hm, hp⟩⟩

theorem exists_consistsOf (address : String) : ∃ pieces, ConsistsOf address pieces := by
  obtain ⟨scheme, rest, hchars, hscheme, hbare⟩ := exists_scheme (Text.trimChars address.toList)
  obtain ⟨authority, suffix, rfl, hslash⟩ := exists_suffix rest
  obtain ⟨credentials, place, rfl, hat⟩ := exists_credentials authority
  rw [List.mem_append, not_or] at hslash
  refine ⟨⟨scheme, credentials, place, suffix, hscheme, hbare, ?_, hslash.2, hat⟩, hchars⟩
  rintro text hm hs
  rw [Option.mem_def.1 hm] at hslash
  exact hslash.1 (by simp [hs])

/-! ## Places -/

/-- A place is a host, or a host and a port with the last colon between them. -/
inductive Divides : List Char → List Char → Option (List Char) → Prop
  | host {host : List Char} (h : ':' ∉ host) : Divides host host none
  | port {host port : List Char} (h : ':' ∉ port) : Divides (host ++ ':' :: port) host (some port)

theorem exists_divides (place : List Char) : ∃ host port, Divides place host port := by
  by_cases h : ':' ∈ place
  · obtain ⟨host, port, rfl, hn⟩ := exists_append_of_mem h
    exact ⟨host, some port, .port hn⟩
  · exact ⟨place, none, .host h⟩

/-- What stands for a port says which it is: the one that is usual where nothing stands, and else the
number that is written there, which is one of a port. -/
def IsPort (number : Nat) : Option (List Char) → Prop
  | none => number = defaultPort
  | some text => Text.Numeral.Writes number (trimmed text) ∧ number ≤ portLimit

theorem trimmed_eq_empty_iff {text : List Char} : trimmed text = "" ↔ AreBlank text := by
  rw [trimmed, Text.trim, String.toList_ofList, ← String.toList_inj, String.toList_ofList]
  exact Text.trimChars_eq_nil_iff

theorem trimmed_eq_of_isTrimmed {text : List Char} (h : IsTrimmed text) :
    trimmed text = String.ofList text := by
  have htrim : Text.trimChars text = text :=
    Text.trimChars_eq_iff.2 ⟨h, [], [], by simp, by simp [AreBlank], by simp [AreBlank]⟩
  rw [trimmed, Text.trim, String.toList_ofList, htrim]

section Reading

variable {address : String} {place host : List Char} {port : Option (List Char)}

theorem hostAndPort_eq_ok_iff (h : Divides place host port) {name : String} {number : Nat} :
    hostAndPort address place = .ok (name, number) ↔ name = trimmed host ∧ IsPort number port := by
  cases h with
  | host hn =>
      rw [hostAndPort, cutLast_eq_none_iff.2 hn]
      simp [IsPort, eq_comm]
  | port hn =>
      rename_i port
      rw [hostAndPort, cutLast_append hn, IsPort, ← Text.Numeral.natural_eq_ok_iff]
      cases hread : Text.Numeral.natural portLimit (trimmed port) with
      | error fault => simp [hread, invalid]
      | ok read => simp [hread, eq_comm]

theorem exists_reason_of_hostAndPort {error : Error}
    (h : hostAndPort address place = .error error) : ∃ reason, error = .invalidArgument reason := by
  unfold hostAndPort at h
  split at h
  · cases h
  · split at h
    · cases h
    · cases h
      exact ⟨_, rfl⟩

theorem bind_named (read : Result (String × Nat)) (finish : String → Nat → Endpoint) :
    (do
      let (name, number) ← read
      if name = "" then invalid address "missing host"
      return finish name number : Result Endpoint) =
      match read with
      | .error error => .error error
      | .ok (name, number) =>
          if name = "" then invalid address "missing host" else .ok (finish name number) := by
  cases read with
  | error error => rfl
  | ok read =>
      obtain ⟨name, number⟩ := read
      by_cases hname : name = ""
      · simp [hname, invalid, bind, Except.bind]
      · simp [hname, bind, Except.bind, pure, Except.pure]

theorem parse_eq {pieces : Pieces} (h : ConsistsOf address pieces) :
    parse address =
      if pieces.chars = [] then .error (.invalidArgument "empty graph url")
      else
        match hostAndPort address pieces.place with
        | .error error => .error error
        | .ok (name, number) =>
            if name = "" then invalid address "missing host"
            else .ok ⟨name, number, (credentials pieces.credentials).1,
              (credentials pieces.credentials).2⟩ := by
  have hchars : Text.trimChars address.toList = pieces.chars := h
  unfold parse
  rw [hchars]
  by_cases hempty : pieces.chars = []
  · rw [if_pos hempty, hempty]
    rfl
  · rw [if_neg hempty]
    simp only [List.isEmpty_iff, hempty, if_false, pieces.withoutScheme_chars, pieces.cutFirst_rest,
      pieces.cutLast_authority]
    cases hc : pieces.credentials with
    | none =>
        have hplace : pieces.authority = pieces.place := by
          rw [Pieces.authority, hc]
          rfl
        rw [hplace]
        exact bind_named (hostAndPort address pieces.place) fun name number =>
          ⟨name, number, (credentials none).1, (credentials none).2⟩
    | some text =>
        exact bind_named (hostAndPort address pieces.place) fun name number =>
          ⟨name, number, (credentials (some text)).1, (credentials (some text)).2⟩

theorem areBlank_of_chars_eq_nil {pieces : Pieces} (h : pieces.chars = [])
    (hd : Divides pieces.place host port) : AreBlank host := by
  have hplace : pieces.place = [] := by
    simp only [Pieces.chars, Pieces.rest, Pieces.authority, List.append_eq_nil_iff] at h
    exact h.2.1.2
  rw [hplace] at hd
  generalize hnil : ([] : List Char) = place at hd
  cases hd with
  | host => simp [← hnil, AreBlank]
  | port => simp at hnil

/-- An address is accepted where it names a host, and a port if it has a colon behind the host. -/
theorem parse_eq_ok_iff {pieces : Pieces} (h : ConsistsOf address pieces)
    (hd : Divides pieces.place host port) {endpoint : Endpoint} :
    parse address = .ok endpoint ↔
      ¬AreBlank host ∧ endpoint.host = trimmed host ∧ IsPort endpoint.port port ∧
        (endpoint.user, endpoint.password) = credentials pieces.credentials := by
  have hempty : pieces.chars = [] → AreBlank host := fun hnil => areBlank_of_chars_eq_nil hnil hd
  have hread : parse address = .ok endpoint ↔ pieces.chars ≠ [] ∧
      hostAndPort address pieces.place = .ok (endpoint.host, endpoint.port) ∧ endpoint.host ≠ "" ∧
        (endpoint.user, endpoint.password) = credentials pieces.credentials := by
    obtain ⟨name, number, user, password⟩ := endpoint
    rw [parse_eq h]
    by_cases hnil : pieces.chars = []
    · simp [hnil]
    · cases hostAndPort address pieces.place with
      | error error => simp [hnil]
      | ok read =>
          obtain ⟨readName, readNumber⟩ := read
          by_cases hname : readName = ""
          · simp only [hnil, hname, invalid]
            grind
          · simp only [hnil, hname]
            grind
  rw [hread, hostAndPort_eq_ok_iff hd]
  constructor
  · rintro ⟨-, ⟨hhost, hport⟩, hname, hcredentials⟩
    rw [hhost, Ne, trimmed_eq_empty_iff] at hname
    exact ⟨hname, hhost, hport, hcredentials⟩
  · rintro ⟨hblank, hhost, hport, hcredentials⟩
    have hname : endpoint.host ≠ "" := by rwa [hhost, Ne, trimmed_eq_empty_iff]
    exact ⟨fun hnil => hblank (hempty hnil), ⟨hhost, hport⟩, hname, hcredentials⟩

theorem exists_reason_of_parse {error : Error} (h : parse address = .error error) :
    ∃ reason, error = .invalidArgument reason := by
  obtain ⟨pieces, hp⟩ := exists_consistsOf address
  rw [parse_eq hp] at h
  split at h
  · cases h
    exact ⟨_, rfl⟩
  · split at h
    · rename_i hread
      cases h
      exact exists_reason_of_hostAndPort hread
    · split at h
      · cases h
        exact ⟨_, rfl⟩
      · cases h

end Reading

/-! ## Addresses as they are written -/

/-- What an address is written from. A mark may stand in every part that it does not end. -/
structure Parts where
  scheme : String
  user : Option String
  password : Option String
  host : String
  port : Option Nat
  suffix : Option String
  scheme_mem : scheme ∈ schemes
  notMem_user : ∀ text ∈ user, ':' ∉ text.toList ∧ '/' ∉ text.toList
  slash_notMem_password : ∀ text ∈ password, '/' ∉ text.toList
  host_ne : host ≠ ""
  isTrimmed_host : IsTrimmed host.toList
  notMem_host : '/' ∉ host.toList ∧ ':' ∉ host.toList ∧ '@' ∉ host.toList
  port_le : ∀ number ∈ port, number ≤ portLimit

namespace Parts

variable (parts : Parts)

/-- Credentials without the mark behind them; a user without a password needs no colon. -/
def userinfo : Option String :=
  match parts.user, parts.password with
  | none, none => none
  | some user, none => some user
  | user, some password => some (user.getD "" ++ ":" ++ password)

def portText : Option String := parts.port.map toString

def place : String := parts.host ++ (parts.portText.map (":" ++ ·)).getD ""

def toText : String :=
  parts.scheme ++ (parts.userinfo.map (· ++ "@")).getD "" ++ parts.place ++
    (parts.suffix.map ("/" ++ ·)).getD ""

theorem nonEmpty_toList (text : String) : nonEmpty text.toList = (some text).filter (· ≠ "") := by
  by_cases h : text = "" <;> simp [nonEmpty, Option.filter, h]

theorem credentials_userinfo : credentials (parts.userinfo.map String.toList) =
    (parts.user.filter (· ≠ ""), parts.password.filter (· ≠ "")) := by
  have hnone : nonEmpty [] = none := rfl
  have hcut (user : Option String) (hu : user = parts.user) (password : String) :
      cutFirst ':' (user.getD "" ++ ":" ++ password).toList =
        some ((user.getD "").toList, password.toList) := by
    have hcolon : ':' ∉ (user.getD "").toList := by
      cases user with
      | none => simp
      | some user => exact (parts.notMem_user user hu.symm).1
    rw [String.toList_append, String.toList_append, List.append_assoc]
    exact cutFirst_append hcolon password.toList
  unfold userinfo
  cases hu : parts.user with
  | none =>
      cases hp : parts.password with
      | none => rfl
      | some password =>
          have hread := hcut none hu.symm password
          simp only [credentials, Option.map_some, hread, nonEmpty_toList]
          rfl
  | some user =>
      cases hp : parts.password with
      | none =>
          have hcolon := cutFirst_eq_none_iff.2 (parts.notMem_user user hu).1
          simp only [credentials, Option.map_some, hcolon, nonEmpty_toList]
          rfl
      | some password =>
          have hread := hcut (some user) hu.symm password
          simp only [credentials, Option.map_some, hread, nonEmpty_toList]
          rfl

theorem slash_notMem_userinfo : ∀ text ∈ parts.userinfo.map String.toList, '/' ∉ text := by
  have huser := parts.notMem_user
  have hpassword := parts.slash_notMem_password
  unfold userinfo
  cases hu : parts.user with
  | none =>
      cases hp : parts.password with
      | none => simp
      | some password => simpa using hpassword password hp
  | some user =>
      obtain ⟨-, hslash⟩ := huser user hu
      cases hp : parts.password with
      | none => simpa using hslash
      | some password => simpa using ⟨hslash, hpassword password hp⟩

theorem divides_place : Divides parts.place.toList parts.host.toList
    (parts.portText.map String.toList) := by
  obtain ⟨-, hcolon, -⟩ := parts.notMem_host
  unfold place portText
  cases parts.port with
  | none => simpa using Divides.host hcolon
  | some number =>
      have hdigits : ':' ∉ (toString number).toList := fun hm =>
        absurd (Text.Numeral.isDigit_of_mem_toString hm) (by decide)
      simpa using Divides.port hdigits

theorem isTrimmed_toString (number : Nat) : IsTrimmed (toString number).toList where
  head char hm := by
    have hdigit := Text.Numeral.isDigit_of_mem_toString (List.mem_of_mem_head? hm)
    exact Text.isBlank_eq_false_of_isDigit hdigit
  last char hm := by
    have hdigit := Text.Numeral.isDigit_of_mem_toString (List.mem_of_mem_getLast? hm)
    exact Text.isBlank_eq_false_of_isDigit hdigit

theorem isPort_portText :
    IsPort (parts.port.getD defaultPort) (parts.portText.map String.toList) := by
  have hle := parts.port_le
  unfold portText
  cases hport : parts.port with
  | none => rfl
  | some number =>
      have htrim : trimmed (toString number).toList = toString number := by
        rw [trimmed_eq_of_isTrimmed (isTrimmed_toString number), String.ofList_toList]
      refine ⟨⟨(toString number).toList, Text.Numeral.areDigitsOf_toString number, .inl ?_⟩,
        hle number hport⟩
      exact congrArg String.toList htrim

theorem getLast?_place : ∀ char ∈ parts.place.toList.getLast?, Text.isBlank char = false := by
  intro char hm
  have htext : parts.place.toList =
      parts.host.toList ++ ((parts.portText.map (":" ++ ·)).getD "").toList := by
    rw [place, String.toList_append]
  rw [htext] at hm
  unfold portText at hm
  cases hport : parts.port with
  | none => exact parts.isTrimmed_host.last char (by simpa [hport] using hm)
  | some number =>
      have hne : (toString number).toList ≠ [] :=
        (Text.Numeral.areDigitsOf_toString number).ne_nil
      refine (isTrimmed_toString number).last char ?_
      rw [hport, Option.map_some, Option.map_some, Option.getD_some, String.toList_append,
        ← List.append_assoc, List.getLast?_append_of_ne_nil _ hne] at hm
      exact hm

def frontChars : List Char :=
  parts.scheme.toList ++ ((parts.userinfo.map String.toList).map (· ++ ['@'])).getD [] ++
    parts.place.toList

theorem toList_toText : parts.toText.toList =
    parts.frontChars ++ ((parts.suffix.map String.toList).map ('/' :: ·)).getD [] := by
  unfold toText frontChars
  cases parts.userinfo <;> cases parts.suffix <;> simp

theorem place_ne_nil : parts.place.toList ≠ [] := by
  have hhost := parts.host_ne
  rw [place, String.toList_append, Ne, List.append_eq_nil_iff]
  simp [hhost]

theorem isTrimmed_frontChars_append (back : List Char)
    (hb : ∀ char ∈ back.getLast?, Text.isBlank char = false) :
    IsTrimmed (parts.frontChars ++ back) := by
  have hfront : ∃ others, parts.frontChars ++ back = parts.scheme.toList ++ others :=
    ⟨_, by rw [frontChars, List.append_assoc, List.append_assoc]⟩
  constructor
  · obtain ⟨others, hothers⟩ := hfront
    rw [hothers]
    intro char hm
    rcases List.mem_pair.1 parts.scheme_mem with hs | hs
    all_goals
      rw [hs] at hm
      obtain rfl := Option.some.inj hm
      decide
  · intro char hm
    by_cases hnil : back = []
    · rw [hnil, List.append_nil, frontChars,
        List.getLast?_append_of_ne_nil _ parts.place_ne_nil] at hm
      exact parts.getLast?_place char hm
    · rw [List.getLast?_append_of_ne_nil _ hnil] at hm
      exact hb char hm

theorem not_areBlank_host : ¬AreBlank parts.host.toList := by
  intro h
  have hnil : parts.host.toList ≠ [] := by simpa using parts.host_ne
  have hhead := parts.isTrimmed_host.head _ (List.head?_eq_some_head hnil)
  rw [h _ (List.head_mem hnil)] at hhead
  cases hhead

theorem notMem_place {mark : Char} (hh : mark ∉ parts.host.toList) (hc : mark ≠ ':')
    (hd : mark.isDigit = false) : mark ∉ parts.place.toList := by
  have hport : mark ∉ ((parts.portText.map (":" ++ ·)).getD "").toList := by
    unfold portText
    cases parts.port with
    | none => simp
    | some number =>
        have hdigits : mark ∉ (toString number).toList := fun hm => by
          rw [Text.Numeral.isDigit_of_mem_toString hm] at hd
          cases hd
        simpa using ⟨hc, by simpa using hdigits⟩
  rw [place, String.toList_append, List.mem_append, not_or]
  exact ⟨hh, hport⟩

/-- The pieces that the parts make up, given what is left of the suffix. -/
def pieces (suffix : Option (List Char)) : Pieces where
  scheme := some parts.scheme
  credentials := parts.userinfo.map String.toList
  place := parts.place.toList
  suffix := suffix
  scheme_mem := by simpa using parts.scheme_mem
  bare := by simp
  slash_notMem_credentials := parts.slash_notMem_userinfo
  slash_notMem_place := parts.notMem_place parts.notMem_host.1 (by decide) (by decide)
  at_notMem_place := parts.notMem_place parts.notMem_host.2.2 (by decide) (by decide)

theorem chars_pieces (suffix : Option (List Char)) : (parts.pieces suffix).chars =
    parts.frontChars ++ (suffix.map ('/' :: ·)).getD [] := by
  simp [Pieces.chars, Pieces.rest, Pieces.authority, pieces, frontChars]

theorem exists_consistsOf_toText {front back : String} (hf : AreBlank front.toList)
    (hb : AreBlank back.toList) :
    ∃ suffix, ConsistsOf (front ++ parts.toText ++ back) (parts.pieces suffix) := by
  simp only [ConsistsOf, chars_pieces, String.toList_append, toList_toText]
  cases hs : parts.suffix with
  | none =>
      have htrimmed := parts.isTrimmed_frontChars_append [] (by simp)
      exact ⟨none, Text.trimChars_eq_of_append hf htrimmed hb⟩
  | some suffix =>
      -- Blanks at the end of a suffix go with those behind the address.
      obtain ⟨kept, blanks, hsuffix, hblanks, hkept⟩ := Text.exists_append_areBlank suffix.toList
      have htrimmed := parts.isTrimmed_frontChars_append ('/' :: kept) (by
        cases kept with
        | nil => simp; decide
        | cons char rest => simpa using hkept)
      refine ⟨some kept, Text.trimChars_eq_iff.2 ⟨htrimmed, front.toList, blanks ++ back.toList,
        by simp [hsuffix], hf, ?_⟩⟩
      intro char hm
      exact (List.mem_append.1 hm).elim (hblanks char) (hb char)

end Parts

theorem exists_reason_iff {address : String} {pieces : Pieces} {host : List Char}
    {port : Option (List Char)} (h : ConsistsOf address pieces)
    (hd : Divides pieces.place host port) :
    (∃ reason, parse address = .error (.invalidArgument reason)) ↔
      AreBlank host ∨ ¬∃ number, IsPort number port := by
  have hok : (∃ endpoint, parse address = .ok endpoint) ↔
      ¬AreBlank host ∧ ∃ number, IsPort number port := by
    simp only [parse_eq_ok_iff h hd]
    constructor
    · rintro ⟨endpoint, hhost, -, hport, -⟩
      exact ⟨hhost, endpoint.port, hport⟩
    · rintro ⟨hhost, number, hport⟩
      exact ⟨⟨trimmed host, number, _, _⟩, hhost, rfl, hport, rfl⟩
  rw [← not_not (a := AreBlank host), ← not_and_or, ← hok]
  cases hparse : parse address with
  | error error =>
      obtain ⟨reason, rfl⟩ := exists_reason_of_parse hparse
      simp
  | ok endpoint => simp

/-- An address is written so that it is read back: between blanks each of its parts is found again,
the usual port where none is written, and no user or password where it is empty. Of any address that
is divided into its pieces, and its place into host and port, the host has to be more than blanks,
and what stands behind the last colon a number of a port; otherwise the argument is refused. -/
theorem parse_inverts :
    (∀ (parts : Parts) (front back : String), AreBlank front.toList → AreBlank back.toList →
      parse (front ++ parts.toText ++ back) = .ok ⟨parts.host, parts.port.getD defaultPort,
        parts.user.filter (· ≠ ""), parts.password.filter (· ≠ "")⟩) ∧
    ∀ address, (∃ pieces host port, ConsistsOf address pieces ∧ Divides pieces.place host port) ∧
      ∀ pieces host port, ConsistsOf address pieces → Divides pieces.place host port →
        ((∃ reason, parse address = .error (.invalidArgument reason)) ↔
          AreBlank host ∨ ¬∃ number, IsPort number port) := by
  constructor
  · intro parts front back hf hb
    obtain ⟨suffix, h⟩ := parts.exists_consistsOf_toText hf hb
    refine (parse_eq_ok_iff h parts.divides_place).2
      ⟨parts.not_areBlank_host, ?_, parts.isPort_portText, parts.credentials_userinfo.symm⟩
    rw [trimmed_eq_of_isTrimmed parts.isTrimmed_host, String.ofList_toList]
  · intro address
    obtain ⟨pieces, hp⟩ := exists_consistsOf address
    obtain ⟨host, port, hd⟩ := exists_divides pieces.place
    exact ⟨⟨pieces, host, port, hp, hd⟩, fun _ _ _ => exists_reason_iff⟩

/-- A user and a password with the marks in them that end other parts. -/
def sampleParts : Parts where
  scheme := "redis://"
  user := some "nav@fleet"
  password := some "a:b@c"
  host := "graph.local"
  port := some 6380
  suffix := some "code/base:1 "
  scheme_mem := by decide
  notMem_user := by decide
  slash_notMem_password := by decide
  host_ne := by decide
  isTrimmed_host := ⟨by rintro _ ⟨⟩; decide, by rintro _ ⟨⟩; decide⟩
  notMem_host := by decide
  port_le := by decide

/-- The pieces of a bare address whose port is too large. -/
def samplePieces : Pieces where
  scheme := none
  credentials := none
  place := "graph".toList ++ ':' :: "65536".toList
  suffix := none
  scheme_mem := by decide
  bare := by decide
  slash_notMem_credentials := by decide
  slash_notMem_place := by decide
  at_notMem_place := by decide

theorem parse_inverts_sampleParts :
    sampleParts.toText = "redis://nav@fleet:a:b@c@graph.local:6380/code/base:1 " ∧
      AreBlank "\t ".toList ∧ AreBlank "\n".toList ∧
      parse ("\t " ++ sampleParts.toText ++ "\n") =
        .ok ⟨"graph.local", 6380, some "nav@fleet", some "a:b@c"⟩ ∧
      ConsistsOf "graph:65536" samplePieces ∧
      Divides samplePieces.place "graph".toList (some "65536".toList) ∧
      ∃ reason, parse "graph:65536" = .error (.invalidArgument reason) := by
  obtain ⟨hread, hrefused⟩ := parse_inverts
  have hfront : AreBlank "\t ".toList := List.all_eq_true.1 (by decide)
  have hback : AreBlank "\n".toList := List.all_eq_true.1 (by decide)
  have hconsists : ConsistsOf "graph:65536" samplePieces := by unfold ConsistsOf; decide
  have hdivides : Divides samplePieces.place "graph".toList (some "65536".toList) :=
    .port (by decide)
  have hport : ¬∃ number, IsPort number (some "65536".toList) := by
    rintro ⟨number, h⟩
    have hnatural := Text.Numeral.natural_eq_ok_iff.2 h
    have herror : (Text.Numeral.natural portLimit (trimmed "65536".toList)).toOption = none := by
      decide
    rw [hnatural] at herror
    cases herror
  refine ⟨by decide, hfront, hback, hread sampleParts _ _ hfront hback, hconsists, hdivides, ?_⟩
  exact ((hrefused "graph:65536").2 _ _ _ hconsists hdivides).2 (.inr hport)

end CodeAtlas.Remote.Endpoint
