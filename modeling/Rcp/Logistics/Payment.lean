/-
Donations of money (`services/logistics/app/services/payment.py` and the route
`create_checkout`).

`generate_hash` and the merchant id of the environment are parameters, and the order
id is the UUID that the call draws.
-/
import Rcp.Logistics.Services

namespace Rcp
namespace Logistics

open Sql

/-- `PaymentCheckoutResponse`. -/
structure PaymentCheckoutResponse where
  orderId : String
  merchantId : String
  hash : String
  amount : PyFloat
  currency : String
  items : String

/-- The row that `create_checkout_session` adds. -/
def newPayment (tenantId donorUserId : Uuid) (data : PaymentCheckoutRequest) (orderId : String) :
    PaymentDonation :=
  { tenantId := tenantId
    donorUserId := donorUserId
    categoryId := data.categoryId
    amount := data.amount
    payhereOrderId := orderId
    quantity := data.quantity }

def createCheckoutSession (generateHash : String → PyFloat → String → String)
    (merchantId : String) (tenantId donorUserId : Uuid) (data : PaymentCheckoutRequest)
    (orderId : String) : Prog Db Error PaymentCheckoutResponse :=
  if ¬ FitsInteger data.quantity then .raise .dataError
  else do
    match ← selectKey Db.categoriesT data.categoryId with
    | none => .raise (.integrityError "payment_donations_category_id_fkey")
    | some _ => do
        match ← insertUnique Db.paymentsT (fun payment => payment.payhereOrderId == orderId)
            fun _ => newPayment tenantId donorUserId data orderId with
        | none => .raise (.integrityError "payment_donations_payhere_order_id_key")
        | some _ => do
            commit
            return { orderId := orderId
                     merchantId := merchantId
                     hash := generateHash orderId data.amount "LKR"
                     amount := data.amount
                     currency := "LKR"
                     items := "Disaster Relief Donation" }

/-- The route `create_checkout`, which takes the tenant from the form. -/
def createCheckout (generateHash : String → PyFloat → String → String) (merchantId : String)
    (principal : Principal) (data : PaymentCheckoutRequest) (orderId : String) :
    Prog Db Error PaymentCheckoutResponse :=
  createCheckoutSession generateHash merchantId data.tenantId principal.userId data orderId

end Logistics
end Rcp
