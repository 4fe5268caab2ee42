import TinyShop.Base.Program
import TinyShop.Base.Table
import TinyShop.Base.Replay
import TinyShop.Base.Exclusion
import TinyShop.RelayDelivery
import TinyShop.OnSale
import TinyShop.Convergence
import TinyShop.Redelivery
import TinyShop.Checkout
import TinyShop.DoubleSubmit
import TinyShop.AddDuringCheckout
import TinyShop.Base.Transaction
import TinyShop.Base.Reliance
import TinyShop.OrderStore
import TinyShop.CartLine
import TinyShop.TaxonomySql
import TinyShop.CartStore
import TinyShop.CartCurrency
import TinyShop.RejectedAdd
import TinyShop.ProductIsolation
import TinyShop.FacetIndex
import TinyShop.FullTextMirror
import TinyShop.PoisonPill
import TinyShop.Base.QueryBuilder
import TinyShop.Base.Paging
import TinyShop.SearchMeaning
import TinyShop.FtsQuery
import TinyShop.Base.CallLog
import TinyShop.TwoWriters
import TinyShop.PhantomEvents
import TinyShop.Translations
import TinyShop.Sessions
import TinyShop.Accounts
import TinyShop.PriceTables
import TinyShop.PriceText
import TinyShop.CategoryPage
import TinyShop.Jsonld
import TinyShop.CategoryWalk
import TinyShop.OrderPages
import TinyShop.ProductSql
import TinyShop.CookieHeader
import TinyShop.Contacts
import TinyShop.RangeParams
import TinyShop.Sitemap
import TinyShop.SitemapXml
import TinyShop.Base.History
import TinyShop.Base.Clients
import TinyShop.OrderOrigin
import TinyShop.Pages
import TinyShop.Receipts
import TinyShop.Browsers
import TinyShop.Rounding
import TinyShop.PriceFilter
import TinyShop.Numerals
import TinyShop.Forms
import TinyShop.FilterForm
import TinyShop.CartForms
import TinyShop.Base.Drift
import TinyShop.PublishDuringSitemap
import TinyShop.Storefront
import TinyShop.ProductDetails
