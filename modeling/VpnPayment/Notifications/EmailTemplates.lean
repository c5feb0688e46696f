import VpnPayment.Collections.Html
import VpnPayment.Core.Money
import VpnPayment.Storage.Repositories

/-! Localized billing emails. -/
namespace VpnPayment

inductive Locale
  | zhCN
  | en
deriving DecidableEq

inductive EmailType
  | payment_receipt
  | refund_notice
  | expiry_reminder
  | expired_notice
deriving DecidableEq

structure EmailData where
  userName : Option String
  planName : String
  /-- Amount in minor units (for receipt / refund). -/
  amountMinor : Option Int
  currency : Option Currency
  expiryDate : Option String
  /-- Order / refund reference to show. -/
  reference : Option String
deriving DecidableEq

structure RenderedEmail where
  subject : String
  text : String
  html : String
deriving DecidableEq

/-- Falls back to English for unknown locales. -/
def normaliseLocale (locale : String) : Locale :=
  if locale = "zh-CN" then .zhCN else .en

def EmailData.money (data : EmailData) : Except AppError String :=
  match data.amountMinor, data.currency with
  | some amountMinor, some currency => do
      let text ← fromMinorUnits amountMinor currency
      return text ++ " " ++ currency.name
  | _, _ => return ""

/-- `s.replace(/c/g, text)` -/
def replaceAll (c : Char) (text : String) (s : List Char) : List Char :=
  s.flatMap fun d => if d = c then text.toList else [d]

/-- Minimal HTML escaping for interpolated values. -/
def esc (s : List Char) : List Char :=
  replaceAll '"' "&quot;" (replaceAll '>' "&gt;" (replaceAll '<' "&lt;" (replaceAll '&' "&amp;" s)))

/-- `value ? text(value) : other` -/
def orElse (value : Option String) (text : String → String) (other : String) : String :=
  match truthy value with
  | some value => text value
  | none => other

/-- The subject and the lines of an email. -/
def templates : Locale → EmailType → EmailData → Except AppError (String × List String)
  | .zhCN, .payment_receipt, d => do
      let money ← d.money
      return (s!"支付成功：{d.planName}", [
        orElse d.userName (· ++ "，") "" ++ "您好：",
        "我们已收到您的付款，感谢您购买 VPN 服务。",
        s!"套餐：{d.planName}",
        s!"金额：{money}",
        orElse d.reference ("订单号：" ++ ·) "",
        "您的服务已开通，祝您使用愉快。"])
  | .zhCN, .refund_notice, d => do
      let money ← d.money
      return (s!"退款通知：{d.planName}", [
        orElse d.userName (· ++ "，") "" ++ "您好：",
        "您的退款已处理。",
        s!"套餐：{d.planName}",
        s!"退款金额：{money}",
        orElse d.reference ("退款单号：" ++ ·) "",
        "款项将按原路退回，请留意到账。"])
  | .zhCN, .expiry_reminder, d =>
      return (s!"续费提醒：{d.planName} 即将到期", [
        orElse d.userName (· ++ "，") "" ++ "您好：",
        "您的 VPN 订阅即将到期。",
        s!"套餐：{d.planName}",
        orElse d.expiryDate ("到期时间：" ++ ·) "",
        "请及时续费，以免服务中断。"])
  | .zhCN, .expired_notice, d =>
      return (s!"服务已到期：{d.planName}", [
        orElse d.userName (· ++ "，") "" ++ "您好：",
        "您的 VPN 订阅已到期，服务已暂停。",
        s!"套餐：{d.planName}",
        "续费后即可立即恢复使用，欢迎回来。"])
  | .en, .payment_receipt, d => do
      let money ← d.money
      return (s!"Payment received: {d.planName}", [
        orElse d.userName (fun name => "Hi " ++ name ++ ",") "Hello,",
        "Thank you for your purchase. Your payment has been received.",
        s!"Plan: {d.planName}",
        s!"Amount: {money}",
        orElse d.reference ("Order: " ++ ·) "",
        "Your service is now active. Enjoy!"])
  | .en, .refund_notice, d => do
      let money ← d.money
      return (s!"Refund processed: {d.planName}", [
        orElse d.userName (fun name => "Hi " ++ name ++ ",") "Hello,",
        "Your refund has been processed.",
        s!"Plan: {d.planName}",
        s!"Refund amount: {money}",
        orElse d.reference ("Refund ref: " ++ ·) "",
        "The amount will be returned to your original payment method."])
  | .en, .expiry_reminder, d =>
      return (s!"Renewal reminder: {d.planName} is expiring soon", [
        orElse d.userName (fun name => "Hi " ++ name ++ ",") "Hello,",
        "Your VPN subscription is about to expire.",
        s!"Plan: {d.planName}",
        orElse d.expiryDate ("Expires: " ++ ·) "",
        "Please renew in time to avoid any interruption."])
  | .en, .expired_notice, d =>
      return (s!"Subscription expired: {d.planName}", [
        orElse d.userName (fun name => "Hi " ++ name ++ ",") "Hello,",
        "Your VPN subscription has expired and service is now paused.",
        s!"Plan: {d.planName}",
        "Renew any time to restore access instantly. Welcome back!"])

/-- `lines.filter((l) => l.trim() !== '')` -/
def keptLines (lines : List String) : List (List Char) :=
  (lines.map String.toList).filter fun l => Numeric.strip l ≠ []

/-- What an email of a type tells besides the plan and the user. -/
def EmailData.details (d : EmailData) : EmailType → List String
  | .payment_receipt | .refund_notice => (truthy d.reference).toList ++ d.money.toOption.toList
  | .expiry_reminder => (truthy d.expiryDate).toList
  | .expired_notice => []

/-- The values of the data that an email of a type shows. -/
def EmailData.shown (d : EmailData) (type : EmailType) : List String :=
  d.planName :: ((truthy d.userName).toList ++ d.details type)

/-- `<p>${esc(l)}</p>` -/
def paragraph (l : List Char) : List Char :=
  "<p>".toList ++ esc l ++ "</p>".toList

def htmlOf (body : List (List Char)) : List Char :=
  "<div>".toList ++ (body.map paragraph).flatten ++ "</div>".toList

/-- Render a billing email in the requested locale. -/
def renderEmail (type : EmailType) (locale : String) (data : EmailData) :
    Except AppError RenderedEmail := do
  let (subject, lines) ← templates (normaliseLocale locale) type data
  let body := keptLines lines
  return ⟨subject, String.ofList (List.intercalate ['\n'] body), String.ofList (htmlOf body)⟩

/-- One character, escaped. -/
def escapeChar (c : Char) : List Char :=
  if c = '&' then "&amp;".toList
  else if c = '<' then "&lt;".toList
  else if c = '>' then "&gt;".toList
  else if c = '"' then "&quot;".toList
  else [c]

/-- Replacing the four characters one after the other is escaping each of them: `&` goes
first, so that the `&` of the others stays. -/
theorem esc_eq (s : List Char) : esc s = s.flatMap escapeChar := by
  unfold esc replaceAll
  rw [List.flatMap_assoc, List.flatMap_assoc, List.flatMap_assoc]
  congr 1
  funext c
  unfold escapeChar
  by_cases hAmp : c = '&'
  · subst hAmp
    decide
  by_cases hLt : c = '<'
  · subst hLt
    decide
  by_cases hGt : c = '>'
  · subst hGt
    decide
  by_cases hQuot : c = '"'
  · subst hQuot
    decide
  simp only [if_neg hAmp, if_neg hLt, if_neg hGt, if_neg hQuot, List.flatMap_cons, List.flatMap_nil,
    List.append_nil]

theorem resolve_escapeChar (c : Char) (rest : List Char) :
    Html.resolve (escapeChar c ++ rest) = c :: Html.resolve rest := by
  unfold escapeChar
  split
  · next h =>
      rw [h]
      exact @Html.resolve_reference rest ("amp;".toList ++ rest) ("amp;".toList, '&') rfl rfl
  · next hAmp =>
      split
      · next h =>
          rw [h]
          exact @Html.resolve_reference rest ("lt;".toList ++ rest) ("lt;".toList, '<') rfl rfl
      · split
        · next h =>
            rw [h]
            exact @Html.resolve_reference rest ("gt;".toList ++ rest) ("gt;".toList, '>') rfl rfl
        · split
          · next h =>
              rw [h]
              exact @Html.resolve_reference rest ("quot;".toList ++ rest) ("quot;".toList, '"') rfl rfl
          · exact Html.resolve_cons hAmp

/-- A reader sees what was escaped. -/
theorem resolve_esc (s : List Char) : Html.resolve (esc s) = s := by
  rw [esc_eq]
  induction s with
  | nil => rfl
  | cons c cs ih => rw [List.flatMap_cons, resolve_escapeChar, ih]

theorem lt_notMem_esc (s : List Char) : '<' ∉ esc s := by
  rw [esc_eq]
  intro h
  obtain ⟨c, -, hMem⟩ := List.mem_flatMap.mp h
  unfold escapeChar at hMem
  split at hMem
  · exact absurd hMem (by decide)
  · split at hMem
    · exact absurd hMem (by decide)
    · next hLt =>
        split at hMem
        · exact absurd hMem (by decide)
        · split at hMem
          · exact absurd hMem (by decide)
          · exact hLt (List.mem_singleton.mp hMem).symm

theorem esc_ne_nil {s : List Char} (h : s ≠ []) : esc s ≠ [] := by
  intro hNil
  apply h
  rw [← resolve_esc s, hNil]
  rfl

theorem textToken_esc {s : List Char} (h : s ≠ []) : Html.textToken (esc s) = [.text s] := by
  rw [Html.textToken, if_neg (esc_ne_nil h), resolve_esc]

/-- The tokens of a paragraph. -/
def paragraphTokens (l : List Char) : List Html.Token :=
  [.tag ['p'], .text l, .tag ['/', 'p']]

theorem readText_paragraph {l : List Char} (h : l ≠ []) (rest : List Char) :
    Html.readText [] (paragraph l ++ rest) = paragraphTokens l ++ Html.readText [] rest := by
  have hText : Html.readText [] (esc l ++ ('<' :: ['/', 'p'] ++ '>' :: rest)) =
      Html.textToken (esc l) ++ .tag ['/', 'p'] :: Html.readText [] rest := by
    rw [Html.readText_append (lt_notMem_esc l), List.nil_append]
    exact @Html.readText_tag (esc l) ['/', 'p'] (by decide) rest
  have hTag := @Html.readText_tag [] ['p'] (by decide) (esc l ++ ('<' :: ['/', 'p'] ++ '>' :: rest))
  rw [hText, textToken_esc h] at hTag
  have hLine : paragraph l ++ rest = "<p>".toList ++ (esc l ++ ("</p>".toList ++ rest)) := by
    rw [paragraph, List.append_assoc ("<p>".toList ++ esc l), List.append_assoc "<p>".toList]
  rw [hLine]
  exact hTag

/-- The tokens of a page. -/
def pageTokens (body : List (List Char)) : List Html.Token :=
  [.tag "div".toList] ++ (body.flatMap paragraphTokens ++ [.tag "/div".toList])

theorem readText_paragraphs {body : List (List Char)} (h : ∀ l ∈ body, l ≠ []) (rest : List Char) :
    Html.readText [] ((body.map paragraph).flatten ++ rest) =
      body.flatMap paragraphTokens ++ Html.readText [] rest := by
  induction body with
  | nil => rfl
  | cons l more ih =>
      rw [List.map_cons, List.flatten_cons, List.append_assoc, readText_paragraph (h l List.mem_cons_self),
        ih fun l' hl' => h l' (List.mem_cons_of_mem l hl'), List.flatMap_cons, List.append_assoc]

theorem read_htmlOf {body : List (List Char)} (h : ∀ l ∈ body, l ≠ []) :
    Html.read (htmlOf body) = pageTokens body := by
  have hClose := @Html.readText_tag [] "/div".toList (by decide) []
  have hOpen := @Html.readText_tag [] "div".toList (by decide)
    ((body.map paragraph).flatten ++ ('<' :: "/div".toList ++ '>' :: []))
  rw [readText_paragraphs h, hClose] at hOpen
  have hPage : htmlOf body = "<div>".toList ++ ((body.map paragraph).flatten ++ "</div>".toList) :=
    List.append_assoc _ _ _
  rw [Html.read, hPage]
  exact hOpen

theorem ne_nil_of_mem_keptLines {lines : List String} {l : List Char} (h : l ∈ keptLines lines) :
    l ≠ [] := by
  intro hNil
  rw [hNil, keptLines, List.mem_filter] at h
  exact absurd h.2 (by decide)

/-- A line with anything but white space is kept. -/
theorem strip_ne_nil {l : List Char} {c : Char} (hMem : c ∈ l) (hInk : Numeric.isSpace c = false) :
    Numeric.strip l ≠ [] := by
  intro hNil
  have hSpace := List.rdropWhile_eq_nil_iff.mp hNil
  have hSplit := List.takeWhile_append_dropWhile (p := Numeric.isSpace) (l := l)
  rw [← hSplit, List.mem_append] at hMem
  rcases hMem with hMem | hMem
  · rw [List.mem_takeWhile_imp hMem] at hInk
    cases hInk
  · rw [hSpace c hMem] at hInk
    cases hInk

/-- The value stands in one of the lines that are kept. -/
def Shows (lines : List String) (value : String) : Prop :=
  ∃ l ∈ keptLines lines, value.toList <:+: l

/-- A value is shown where it stands beside something that is not white space. -/
theorem shows_of_mem {lines : List String} {value : String} (before behind : String) (c : Char)
    (hLine : before ++ value ++ behind ∈ lines) (hMem : c ∈ before.toList ++ behind.toList)
    (hInk : Numeric.isSpace c = false) : Shows lines value := by
  have hChars : (before ++ value ++ behind).toList = before.toList ++ value.toList ++ behind.toList := by
    rw [String.toList_append, String.toList_append]
  refine ⟨_, List.mem_filter.mpr ⟨List.mem_map_of_mem hLine, ?_⟩, ?_⟩
  · have hIn : c ∈ before.toList ++ value.toList ++ behind.toList := by
      rw [List.mem_append] at hMem
      rcases hMem with hMem | hMem
      · exact List.mem_append_left _ (List.mem_append_left _ hMem)
      · exact List.mem_append_right _ hMem
    simpa [hChars] using strip_ne_nil hIn hInk
  · rw [hChars]
    exact ⟨before.toList, behind.toList, rfl⟩

theorem orElse_of_truthy {value : Option String} {v : String} (h : v ∈ (truthy value).toList)
    (text : String → String) (other : String) : orElse value text other = text v := by
  rw [orElse, Option.mem_toList.mp h]

/-- A line with a label and an optional value. -/
theorem shows_labelled {lines : List String} {value : Option String} (label : String) (c : Char)
    (hLine : orElse value (label ++ ·) "" ∈ lines) (hMem : c ∈ label.toList)
    (hInk : Numeric.isSpace c = false) : ∀ v ∈ (truthy value).toList, Shows lines v := by
  intro v hv
  rw [orElse_of_truthy hv] at hLine
  exact shows_of_mem label "" c (by simpa using hLine) (by simpa using hMem) hInk

section templates

variable {d : EmailData} {line money last : String} {rest others : List String}

/-- The Chinese greeting, and the line of the plan. -/
theorem shows_zhCN
    (hOthers : ∀ v ∈ others, Shows ((orElse d.userName (· ++ "，") "" ++ "您好：") :: line ::
      ("套餐：" ++ d.planName) :: rest) v) :
    ∀ v ∈ d.planName :: ((truthy d.userName).toList ++ others),
      Shows ((orElse d.userName (· ++ "，") "" ++ "您好：") :: line :: ("套餐：" ++ d.planName) :: rest) v := by
  refine List.forall_mem_cons.mpr ⟨?_, List.forall_mem_append.mpr ⟨fun name hName => ?_, hOthers⟩⟩
  · exact shows_of_mem "套餐：" "" '套' (by simp) (by decide) (by decide)
  · rw [orElse_of_truthy hName]
    exact shows_of_mem "" "，您好：" '您' (by simp [String.append_assoc]) (by decide) (by decide)

theorem shows_en
    (hOthers : ∀ v ∈ others, Shows ((orElse d.userName (fun name => "Hi " ++ name ++ ",") "Hello,") ::
      line :: ("Plan: " ++ d.planName) :: rest) v) :
    ∀ v ∈ d.planName :: ((truthy d.userName).toList ++ others),
      Shows ((orElse d.userName (fun name => "Hi " ++ name ++ ",") "Hello,") ::
        line :: ("Plan: " ++ d.planName) :: rest) v := by
  refine List.forall_mem_cons.mpr ⟨?_, List.forall_mem_append.mpr ⟨fun name hName => ?_, hOthers⟩⟩
  · exact shows_of_mem "Plan: " "" 'P' (by simp) (by decide) (by decide)
  · rw [orElse_of_truthy hName]
    exact shows_of_mem "Hi " "," 'H' (by simp) (by decide) (by decide)

/-- The amount and the reference of a receipt or a refund. -/
theorem shows_payment {lines : List String} (label label' : String) (c c' : Char)
    (hMoney : d.money = .ok money) (hAmount : label ++ money ∈ lines)
    (hReference : orElse d.reference (label' ++ ·) "" ∈ lines)
    (hMem : c ∈ label.toList ∧ c' ∈ label'.toList)
    (hInk : Numeric.isSpace c = false ∧ Numeric.isSpace c' = false) :
    ∀ v ∈ (truthy d.reference).toList ++ d.money.toOption.toList, Shows lines v := by
  refine List.forall_mem_append.mpr ⟨shows_labelled label' c' hReference hMem.2 hInk.2, ?_⟩
  rw [hMoney]
  refine List.forall_mem_singleton.mpr ?_
  exact shows_of_mem label "" c (by simpa using hAmount) (by simpa using hMem.1) hInk.1

end templates

/-- Every email shows the plan, the user's name if it has one, and what it is about. -/
theorem templates_show {locale : Locale} {type : EmailType} {d : EmailData} {subject : String}
    {lines : List String} (h : templates locale type d = .ok (subject, lines)) :
    ∀ v ∈ d.shown type, Shows lines v := by
  cases hMoney : d.money with
  | error e =>
      cases locale <;> cases type <;> simp only [templates, hMoney] at h
      all_goals cases h
      · exact shows_zhCN (shows_labelled "到期时间：" '到' (by simp) (by decide) (by decide))
      · exact shows_zhCN nofun
      · exact shows_en (shows_labelled "Expires: " 'E' (by simp) (by decide) (by decide))
      · exact shows_en nofun
  | ok money =>
      cases locale <;> cases type <;> simp only [templates, hMoney] at h
      all_goals cases h
      · exact shows_zhCN (shows_payment "金额：" "订单号：" '金' '订' hMoney
          (.tail _ (.tail _ (.tail _ (.head _)))) (by simp) (by decide) (by decide))
      · exact shows_zhCN (shows_payment "退款金额：" "退款单号：" '退' '退' hMoney
          (.tail _ (.tail _ (.tail _ (.head _)))) (by simp) (by decide) (by decide))
      · exact shows_zhCN (shows_labelled "到期时间：" '到' (by simp) (by decide) (by decide))
      · exact shows_zhCN nofun
      · exact shows_en (shows_payment "Amount: " "Order: " 'A' 'O' hMoney
          (.tail _ (.tail _ (.tail _ (.head _)))) (by simp) (by decide) (by decide))
      · exact shows_en (shows_payment "Refund amount: " "Refund ref: " 'R' 'R' hMoney
          (.tail _ (.tail _ (.tail _ (.head _)))) (by simp) (by decide) (by decide))
      · exact shows_en (shows_labelled "Expires: " 'E' (by simp) (by decide) (by decide))
      · exact shows_en nofun

/-- What a reader gets from an email: the lines of its template that are not blank, as the lines
of the text version and as the paragraphs of the HTML version, which has no markup besides. The
values of the data stand in these lines. -/
structure ReadsAs (r : RenderedEmail) (subject : String) (lines : List String) (shown : List String) :
    Prop where
  subject : r.subject = subject
  text : r.text.toList = List.intercalate ['\n'] (keptLines lines)
  html : Html.read r.html.toList = pageTokens (keptLines lines)
  values : ∀ value ∈ shown, Shows lines value

end VpnPayment
