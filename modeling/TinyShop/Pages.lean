import TinyShop.CategoryListing
import TinyShop.Contacts

/-!
# The other pages

The pages of `crates/web/src/routes` beside that of a category, the pages of `error.rs` and
the layout around all of them.
-/

namespace TinyShop

open Base Markup Jsonld
set_option autoImplicit false

/-- The `<body>` that `page_shell` builds. -/
def PageShell.body (page : PageShell) : List Markup := [
  element "header" [("style",
      "background-color: var(--vuriy-surface); border-bottom: 1px solid var(--vuriy-border);")] [
    element "div" [("class",
        "container d-flex align-items-center justify-content-between py-2 py-md-3")] [
      element "a" [("href", "/"), ("class", "d-inline-flex align-items-center text-decoration-none")] [
        element "img" [("src", "/assets/brand/Vuriy_logo.webp"), ("alt", "Vuriy"),
          ("class", "brand-logo")] []]]],
  element "main" [("class", "container py-4")] page.main,
  element "footer" [("class", "border-top mt-5 py-3 text-center text-muted small")]
    [text "© 2026 Vuriy"]]

/-- What a `GET` is answered with. -/
inductive Answer where
  | page (status : Nat) (shell : PageShell)
  | redirect (uri : String)

def pageHeading (title : String) : Markup := element "h1" [] [text title]

def paragraph (s : String) : Markup := element "p" [] [text s]

/-- A paragraph that is only a link. -/
def paragraphLink (href title : String) : Markup :=
  element "p" [] [element "a" [("href", href)] [text title]]

/-! ## Errors -/

def notFoundPage : PageShell where
  title := "Сторінку не знайдено"
  headExtra := []
  main := [pageHeading "Сторінку не знайдено",
    paragraph "Запитана сторінка не існує або була видалена.", paragraphLink "/" "На головну"]

def badRequestPage : PageShell where
  title := "Некоректний запит"
  headExtra := []
  main := [pageHeading "Некоректний запит",
    paragraph "Дані форми некоректні. Перевірте введені значення і спробуйте ще раз.",
    paragraphLink "/cart" "До кошика"]

def serverErrorPage : PageShell where
  title := "Помилка сервера"
  headExtra := []
  main := [pageHeading "Помилка сервера",
    paragraph "Сталася неочікувана помилка. Спробуйте пізніше."]

/-- The page of `invalid_contact_response`. -/
def CheckoutPage.invalidContactPage (items : List CartItem) (form : ContactForm)
    (message : String) : PageShell where
  title := "Оформлення замовлення"
  headExtra := []
  main := [pageHeading "Оформлення замовлення", summaryTable items,
    element "p" [("role", "alert"), ("class", "alert alert-danger")] [text message],
    contactForm (some form), paragraphLink "/cart" "Назад до кошика"]

/-- The page of a response that has one. -/
def Body.shell : Body → Option PageShell
  | .empty => none
  | .text _ => none
  | .notFound => some notFoundPage
  | .badRequest => some badRequestPage
  | .serverError => some serverErrorPage
  | .contactForm items form message => some (CheckoutPage.invalidContactPage items form message)

def WebError.answer : WebError → Answer
  | .notFound => .page 404 notFoundPage
  | .badRequest _ => .page 400 badRequestPage
  | .internal _ => .page 500 serverErrorPage

def Answer.ofPage : Except WebError PageShell → Answer
  | .ok shell => .page 200 shell
  | .error e => e.answer

def Answer.ofResult : Except WebError Answer → Answer
  | .ok answer => answer
  | .error e => e.answer

/-! ## The front page -/

namespace HomePage

def categoryCard (category : Category) : Markup :=
  element "div" [("class", "col-12 col-sm-6 col-md-4 col-lg-3")] [
    element "a" [("href", "/c/" ++ category.slug), ("class", "card h-100 text-decoration-none")] [
      element "div" [("class", "card-body")] [
        element "h2" [("class", "card-title h6 mb-0")] [text category.name]]]]

def render (db : TaxonomyDb) : PageShell :=
  let categories := TaxonomyRepo.listCategoriesByParent db .uk none
  { title := "Vuriy"
    headExtra := []
    main := [pageHeading "Vuriy",
      if categories.isEmpty then paragraph "Категорії з'являться тут найближчим часом."
      else element "nav" [("aria-label", "Категорії")] [
        element "div" [("class", "row g-3")] (categories.map categoryCard)]] }

end HomePage

/-! ## The page of a product -/

namespace ProductPage

/-- The category is left out if there is no such row. -/
def crumbs (db : TaxonomyDb) (card : ProductView) : List (String × Option String) :=
  [("Головна", some "/")] ++
    ((card.categoryId.bind (TaxonomyRepo.getCategory db .uk)).map fun category =>
      (category.name, some ("/c/" ++ category.slug))).toList ++
    [(card.title, none)]

def addForm (card : ProductView) : Markup :=
  element "form" [("method", "post"), ("action", "/cart/add"),
      ("class", "row g-2 align-items-end")] [
    element "input" [("type", "hidden"), ("name", "slug"), ("value", card.slug)] [],
    element "div" [("class", "col-auto")] [
      element "label" [("class", "form-label"), ("for", "qty")] [text "Кількість"],
      element "input" [("type", "number"), ("id", "qty"), ("name", "qty"), ("value", "1"),
        ("min", "1"), ("max", CartRepo.maxQty.repr), ("class", "form-control")] []],
    element "div" [("class", "col-auto")] [
      element "button" [("type", "submit"), ("class", "btn btn-primary")]
        [text "Додати в кошик"]]]

def shown (db : TaxonomyDb) (baseUrl slug : String) (card : ProductView) : PageShell where
  title := card.title
  headExtra := productHead baseUrl slug (crumbs db card) card
  main := [
    breadcrumbNav (crumbs db card),
    element "div" [("class", "row")] [
      element "div" [("class", "col-md-8")]
        ([pageHeading card.title] ++
          (card.thumb.map fun thumb => element "img"
            [("src", thumb), ("alt", card.title), ("class", "img-fluid mb-3")] []).toList ++
          [element "p" [("class", "fs-3 fw-bold")]
              (element "span" [] [text "Ціна: "] :: price card.priceMinor card.currency),
            paragraph card.description, addForm card])]]

def render (db : TaxonomyDb) (baseUrl slug : String) : Except WebError PageShell :=
  match SqliteCatalogSearch.getCardBySlug db.toCatalogDb slug with
  | none => .error .notFound
  | some card => .ok (shown db baseUrl slug card)

end ProductPage

/-! ## The cart -/

namespace CartPage

def page (items : List CartItem) : PageShell where
  title := "Кошик"
  headExtra := []
  main :=
    if items.isEmpty then
      [pageHeading "Кошик", paragraph "Кошик порожній.", paragraphLink "/" "До каталогу"]
    else cartTable items ++ [element "p" [] [
      element "a" [("href", "/checkout"), ("class", "btn btn-primary")] [text "Оформити замовлення"]]]

def render (headers : HeaderMap) : WebM PageShell := do
  match ← findCart headers with
  | some cart => do
    let items ← WebM.listItems cart.tokenHash
    return page items
  | none => return page []

def «show» (headers : HeaderMap) : WebProg Answer := do
  let result ← (render headers).run
  return Answer.ofPage result

end CartPage

/-! ## The checkout and its confirmation -/

namespace CheckoutPage

def cartItems (headers : HeaderMap) : WebM (List CartItem) := do
  match ← findCart headers with
  | some cart => WebM.listItems cart.tokenHash
  | none => return []

def page (items : List CartItem) : PageShell where
  title := "Оформлення замовлення"
  headExtra := []
  main := [pageHeading "Оформлення замовлення", summaryTable items, contactForm none,
    paragraphLink "/cart" "Назад до кошика"]

def renderShow (headers : HeaderMap) : WebM Answer := do
  let items ← cartItems headers
  if items.isEmpty then return .redirect "/cart"
  else return .page 200 (page items)

def «show» (headers : HeaderMap) : WebProg Answer := do
  let result ← (renderShow headers).run
  return Answer.ofResult result

def orderRow (item : OrderItem) : Markup :=
  element "tr" [] [
    element "td" [] [text item.title],
    element "td" [] (price item.unitPriceMinor item.currency)]

def orderSummary (order : Order) : Markup :=
  element "table" [("class", "table table-striped align-middle")] [
    element "caption" [] [text "Склад замовлення"],
    element "thead" [] [element "tr" [] [column "Товар", column "Ціна"]],
    element "tbody" [] (order.items.map orderRow),
    element "tfoot" [("class", "table-group-divider")] [element "tr" [] [
      element "th" [("scope", "row"), ("class", "fw-bold")] [text "Разом"],
      element "td" [("class", "fw-bold")] (price order.totalMinor order.currency)]]]

def donePage (order : Order) : PageShell where
  title := "Замовлення прийнято"
  headExtra := []
  main := [pageHeading "Замовлення прийнято",
    element "p" [] [text "Номер замовлення: ", element "strong" [] [text order.id]],
    orderSummary order,
    element "p" [] [text "Дякуємо за замовлення! Інформацію про видачу товару буде надіслано на вашу ",
      text "електронну пошту."],
    paragraphLink "/" "До каталогу"]

def renderDone (db : OrdersDb) (orderId : String) : Except WebError PageShell :=
  match OrderRepo.getOrderWithItems db orderId with
  | .error e => .error (.ofOrder e)
  | .ok none => .error .notFound
  | .ok (some order) => .ok (donePage order)

end CheckoutPage

/-- The text of `/robots.txt`. -/
def Robots.body (baseUrl : String) : String :=
  "User-agent: *\nAllow: /\n\nSitemap: " ++ absoluteUrl baseUrl "/sitemap.xml" ++ "\n"

end TinyShop
